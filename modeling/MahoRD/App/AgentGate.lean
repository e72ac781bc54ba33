/-
MahoRD/App/AgentGate.lean

The agent's HTTP server as a whole: its connections, the jobs that outlive them, the
watchdog, the disconnect and the shutdown (`maho-app/src/agent_server.rs`), interleaved in
any way.

The tracker's lock has one holder: the task of a connection, or the job that it has
dispatched and that keeps the lock when the task goes away.  A job is one step.  Requests
for the screen matter only for the permits they take.  The limit on connections is left
out, as it only keeps steps from happening.
-/
import MahoRD.App.AgentRecord
import MahoRD.Lib.History

namespace MahoRD.Agent

open Presses

/-- The requests that take the tracker.  The actions are none if the body does not parse. -/
inductive Kind
  | input (actions : Option (List AgentAction))
  | reset
  | disconnect
  deriving DecidableEq

/-- A connection without the lock. -/
inductive Conn
  | arrived (kind : Kind)
  /-- It has passed the gate, or it is a disconnect that has closed it. -/
  | waiting (kind : Kind)
  /-- A disconnect after its release, with the error or without. -/
  | answering (error : Bool)

/-- `locked`: before the second look at the gate.  `dispatching`: waiting for a permit. -/
inductive Stage
  | locked | dispatching | running
  deriving DecidableEq

structure Holder where
  id : ℕ
  kind : Kind
  stage : Stage
  /-- The task of the connection is still there. -/
  attached : Bool

inductive Phase
  | serving
  /-- The loop is over: by the disconnect, or by a plain shutdown. -/
  | closing (disconnect : Bool)
  /-- All tasks are joined. -/
  | joined (disconnect : Bool)
  /-- All permits have come back. -/
  | drained (disconnect : Bool)
  | returned (disconnect ok : Bool)
  deriving DecidableEq

/-- Who sent events. -/
inductive Source
  | input | reset | disconnect | watchdog | shutdown

/-- A transaction, with the events that were accepted. -/
structure Entry where
  source : Source
  events : List InputEvent

structure Server where
  input : ServerInput
  log : List Entry
  inputClosed : Bool
  holder : Option Holder
  conns : Table ℕ Conn
  disconnectLock : Option ℕ
  screens : ℕ
  done : Bool
  watchdog : Bool
  phase : Phase

inductive Act
  | connect (id : ℕ) (kind : Kind)
  | gate (id : ℕ)
  | begin (id : ℕ) (supported : Bool)
  | acquire (id : ℕ)
  | giveUp (id : ℕ)
  | check
  | spawn
  | timeOut
  | execute (env : RequestEnv)
  | respond (id : ℕ) (sent : Bool)
  | screenStart
  | screenEnd
  | watchdog (pos : UInt32 × UInt32) (env : ReleaseEnv)
  | close (shutdown : Bool)
  | abort (id : ℕ)
  | abortHolder
  | stopWatchdog
  | join
  | drain (inTime : Bool)
  | finish (env : ReleaseEnv) (stopped : Bool)

def maxWork : ℕ := 4

namespace Server

def new (now : ℕ) : Server := ⟨.new now, [], false, none, ∅, none, 0, false, true, .serving⟩

/-- The permits that are taken. -/
def jobs (s : Server) : ℕ :=
  s.screens + if s.holder.any (·.stage = .running) then 1 else 0

/-- A transaction under the tracker's lock. -/
def transact (s : Server) (source : Source) (input : ServerInput) : Server :=
  { s with input, log := s.log ++ [⟨source, input.accepted.drop s.input.accepted.length⟩] }

/-- A connection is over, and with it the disconnect that it may have been. -/
def close (s : Server) (id : ℕ) : Server :=
  { s with
    conns := s.conns.erase id
    disconnectLock := if s.disconnectLock = some id then none else s.disconnectLock }

/-- The task of the holder is over.  The job that it has dispatched goes on, with the lock. -/
def detach (s : Server) (h : Holder) : Server :=
  let s := s.close h.id
  { s with holder := if h.stage = .running then some { h with attached := false } else none }

/-- The first look at the gate, by an input request or a reset. -/
def gate (s : Server) (id : ℕ) : Option Server :=
  match s.conns.lookup id with
  | some (.arrived (.input actions)) =>
    if s.inputClosed || actions.isNone then some (s.close id)
    else some { s with conns := s.conns.insert id (.waiting (.input actions)) }
  | some (.arrived .reset) =>
    if s.inputClosed then some (s.close id)
    else some { s with conns := s.conns.insert id (.waiting .reset) }
  | _ => none

/-- `handle_session_disconnect` up to the tracker's lock. -/
def beginDisconnect (s : Server) (id : ℕ) (supported : Bool) : Option Server :=
  match s.conns.lookup id with
  | some (.arrived .disconnect) =>
    if !supported || s.disconnectLock.isSome || s.done then some (s.close id)
    else some { s with
      disconnectLock := some id
      inputClosed := true
      conns := s.conns.insert id (.waiting .disconnect) }
  | _ => none

/-- A waiting connection gets the lock.  A disconnect does not look at the gate again. -/
def acquire (s : Server) (id : ℕ) : Option Server :=
  match s.holder, s.conns.lookup id with
  | none, some (.waiting kind) =>
    some { s with
      conns := s.conns.erase id
      holder := some ⟨id, kind, if kind = .disconnect then .dispatching else .locked, true⟩ }
  | _, _ => none

/-- The second look at the gate. -/
def check (s : Server) : Option Server :=
  match s.holder with
  | some ⟨id, kind, .locked, attached⟩ =>
    if s.inputClosed then some (s.detach ⟨id, kind, .locked, attached⟩)
    else some { s with holder := some ⟨id, kind, .dispatching, attached⟩ }
  | _ => none

/-- The job of the holder. -/
def execute (s : Server) (env : RequestEnv) : Option Server :=
  match s.holder with
  | some ⟨id, kind, .running, attached⟩ =>
    let s := { s with holder := none }
    match kind with
    | .input actions => some (s.transact .input (s.input.request env (actions.getD [])).2)
    | .reset => some (s.transact .reset (s.input.release env.cleanup))
    | .disconnect =>
      let error := (releaseInputs env.cleanup s.input.tracker s.input.pos).2.1.isSome
      let s := s.transact .disconnect (s.input.release env.cleanup)
      some (if attached then { s with conns := s.conns.insert id (.answering error) } else s)
  | _ => none

/-- The response of a disconnect.  Unless an error could not be told, the loop is to end. -/
def respond (s : Server) (id : ℕ) (sent : Bool) : Option Server :=
  match s.conns.lookup id with
  | some (.answering error) =>
    let s := s.close id
    some (if error && !sent then s else { s with done := true })
  | _ => none

/-- The end of `run`. -/
def finish (s : Server) (env : ReleaseEnv) (stopped : Bool) : Option Server :=
  match s.phase, s.holder with
  | .drained true, _ => some { s with phase := .returned true stopped }
  | .drained false, none =>
    if s.input.tracker.isEmpty then some { s with phase := .returned false true }
    else some { s.transact .shutdown (s.input.release env) with phase := .returned false true }
  | _, _ => none

def step (s : Server) : Act → Option Server
  | .connect id kind =>
    if s.phase = .serving ∧ id ∉ s.conns ∧ s.holder.all (·.id ≠ id) then
      some { s with conns := s.conns.insert id (.arrived kind) }
    else none
  | .gate id => s.gate id
  | .begin id supported => s.beginDisconnect id supported
  | .acquire id => s.acquire id
  | .giveUp id =>
    match s.conns.lookup id with
    | some (.waiting _) => some (s.close id)
    | _ => none
  | .check => s.check
  | .spawn =>
    match s.holder with
    | some ⟨id, kind, .dispatching, attached⟩ =>
      if s.jobs < maxWork then some { s with holder := some ⟨id, kind, .running, attached⟩ }
      else none
    | _ => none
  | .timeOut =>
    match s.holder with
    | some ⟨id, kind, stage, true⟩ =>
      if stage = .locked then none else some (s.detach ⟨id, kind, stage, true⟩)
    | _ => none
  | .execute env => s.execute env
  | .respond id sent => s.respond id sent
  | .screenStart =>
    match s.phase with
    | .serving | .closing _ =>
      if s.jobs < maxWork then some { s with screens := s.screens + 1 } else none
    | _ => none
  | .screenEnd => if s.screens = 0 then none else some { s with screens := s.screens - 1 }
  | .watchdog pos env =>
    if s.watchdog ∧ s.holder = none then
      some (s.transact .watchdog (s.input.watchdog pos env))
    else none
  | .close shutdown =>
    if s.phase = .serving ∧ (s.done ∨ shutdown) then
      some { s with phase := .closing s.done, inputClosed := true }
    else none
  | .abort id =>
    match s.phase, s.conns.lookup id with
    | .closing _, some _ => some (s.close id)
    | _, _ => none
  | .abortHolder =>
    match s.phase, s.holder with
    | .closing _, some ⟨id, kind, stage, true⟩ => some (s.detach ⟨id, kind, stage, true⟩)
    | _, _ => none
  | .stopWatchdog =>
    match s.phase with
    | .closing _ => some { s with watchdog := false }
    | _ => none
  | .join =>
    match s.phase with
    | .closing disconnect =>
      if s.conns.entries = [] ∧ s.watchdog = false ∧ s.holder.all (!·.attached) then
        some { s with phase := .joined disconnect }
      else none
    | _ => none
  | .drain inTime =>
    match s.phase with
    | .joined disconnect =>
      if !inTime then some { s with phase := .returned disconnect false }
      else if s.jobs = 0 then some { s with phase := .drained disconnect }
      else none
    | _ => none
  | .finish env stopped => s.finish env stopped

end Server

/-! ### What transactions send -/

/-- The event presses nothing. -/
def NoPress (e : InputEvent) : Prop := ∀ item, touches e ≠ some (item, true)

theorem release_events (s : ServerInput) (env : ReleaseEnv) :
    ∃ events, (s.release env).accepted = s.accepted ++ events ∧ ∀ e ∈ events, NoPress e := by
  obtain ⟨accepted, haccepted, hcases⟩ := releaseInputs_cases env s.tracker s.pos
  have hups (e : InputEvent) (he : e ∈ accepted) : NoPress e := by
    obtain ⟨item, -, htouches⟩ := haccepted e he
    intro item' hpress
    cases htouches.symm.trans hpress
  refine ⟨(releaseInputs env s.tracker s.pos).1, rfl, ?_⟩
  rcases hcases with ⟨-, heq, -⟩ | ⟨-, heq, -⟩
  · rw [heq]
    intro e he
    rcases List.mem_append.mp he with hup | hreset
    · exact hups e hup
    · obtain rfl := List.mem_singleton.mp hreset
      exact fun item h => nomatch h
  · rw [heq]
    exact hups

theorem watchdog_events (s : ServerInput) (pos : UInt32 × UInt32) (env : ReleaseEnv) :
    ∃ events, (s.watchdog pos env).accepted = s.accepted ++ events ∧ ∀ e ∈ events, NoPress e := by
  rw [ServerInput.watchdog]
  split
  · exact release_events ⟨s.tracker, pos, s.accepted⟩ env
  · exact ⟨[], (List.append_nil _).symm, fun e he => (List.not_mem_nil he).elim⟩

theorem request_events (s : ServerInput) (env : RequestEnv) (actions : List AgentAction) :
    ∃ events, (s.request env actions).2.accepted = s.accepted ++ events := by
  rw [ServerInput.request]
  rcases runActions env 0 actions (.start s.tracker s.pos) with ⟨ending, r⟩
  cases ending with
  | done => exact ⟨_, rfl⟩
  | failed e => exact ⟨_, rfl⟩
  | refused err => exact ⟨_, List.append_assoc _ _ _⟩

/-! ### The gate -/

/-- From the release of a disconnect on, nothing is pressed. -/
def Quiet (before : List Entry) (e : Entry) : Prop :=
  (e.source = .disconnect ∨ ∃ d ∈ before, d.source = .disconnect) → ∀ ev ∈ e.events, NoPress ev

/-- An input request past the second look at the gate. -/
def Holder.Passed (h : Holder) : Prop := h.stage ≠ .locked ∧ ∃ actions, h.kind = .input actions

namespace Server

structure Gated (s : Server) : Prop where
  log : s.input.accepted = s.log.flatMap Entry.events
  quiet : History.Each (fun before e _ => Quiet before e) s.log
  closed : (∃ d ∈ s.log, d.source = .disconnect) →
    s.inputClosed = true ∧ ∀ h, s.holder = some h → ¬ h.Passed
  waiting : ∀ id, s.conns.lookup id = some (.waiting .disconnect) → s.inputClosed = true
  holder : ∀ h, s.holder = some h → h.kind = .disconnect → s.inputClosed = true

theorem gated_new (now : ℕ) : Gated (new now) where
  log := rfl
  quiet := History.each_nil _
  closed := by rintro ⟨d, hd, -⟩; exact (List.not_mem_nil hd).elim
  waiting id h := nomatch (AList.lookup_empty id).symm.trans h
  holder _ hh := nomatch hh

variable {s s' : Server} {id : ℕ}

theorem Gated.silent (h : Gated s) (hinput : s'.input = s.input)
    (hlog : s'.log = s.log) (hclosed : s.inputClosed = true → s'.inputClosed = true)
    (hpassed : ∀ k, s'.holder = some k → k.Passed → s.inputClosed = true →
      ∃ k₀, s.holder = some k₀ ∧ k₀.Passed)
    (hholder : ∀ k, s'.holder = some k → k.kind = .disconnect → s'.inputClosed = true)
    (hwaiting : ∀ id, s'.conns.lookup id = some (.waiting .disconnect) → s'.inputClosed = true) :
    Gated s' where
  log := by rw [hinput, hlog, h.log]
  quiet := by rw [hlog]; exact h.quiet
  closed hd := by
    rw [hlog] at hd
    obtain ⟨hc, hnone⟩ := h.closed hd
    refine ⟨hclosed hc, fun k hk hpass => ?_⟩
    obtain ⟨k₀, hk₀, hpass₀⟩ := hpassed k hk hpass hc
    exact hnone k₀ hk₀ hpass₀
  waiting := hwaiting
  holder := hholder

theorem Gated.conns (h : Gated s) (hinput : s'.input = s.input)
    (hlog : s'.log = s.log) (hclosed : s'.inputClosed = s.inputClosed)
    (hholder : s'.holder = s.holder)
    (hwaiting : ∀ id, s'.conns.lookup id = some (.waiting .disconnect) →
      s.conns.lookup id = some (.waiting .disconnect)) : Gated s' := by
  refine h.silent hinput hlog (fun hc => hclosed.trans hc) (fun k hk hpass _ => ?_)
    (fun k hk hkind => ?_) fun id hid => ?_
  · exact ⟨k, hholder ▸ hk, hpass⟩
  · exact hclosed.trans (h.holder k (hholder ▸ hk) hkind)
  · exact hclosed.trans (h.waiting id (hwaiting id hid))

theorem lookup_of_erase {t : Table ℕ Conn} {id' : ℕ} {c : Conn}
    (h : (t.erase id).lookup id' = some c) : t.lookup id' = some c :=
  (Table.lookup_erase_eq_some.mp h).2

theorem lookup_of_insert {t : Table ℕ Conn} {id' : ℕ} {c c' : Conn} (hne : c ≠ c')
    (h : (t.insert id c).lookup id' = some c') : t.lookup id' = some c' := by
  rw [Table.lookup_insert] at h
  split at h
  · exact (hne (Option.some.inj h)).elim
  · exact h

theorem Gated.close (h : Gated s) (id : ℕ) : Gated (s.close id) :=
  h.conns rfl rfl rfl rfl fun _ => lookup_of_erase

theorem Gated.detach (h : Gated s) {k : Holder} (hk : s.holder = some k) :
    Gated (s.detach k) := by
  refine h.silent rfl rfl id (fun k' hk' hpass _ => ?_) (fun k' hk' hkind => ?_)
    fun id hid => h.waiting id (lookup_of_erase hid)
  · simp only [Server.detach] at hk'
    split at hk'
    · obtain rfl := Option.some.inj hk'
      exact ⟨k, hk, hpass⟩
    · cases hk'
  · simp only [Server.detach] at hk'
    split at hk'
    · obtain rfl := Option.some.inj hk'
      exact h.holder k hk hkind
    · cases hk'

theorem Gated.transact (h : Gated s) {source : Source} {input : ServerInput}
    {events : List InputEvent} (haccepted : input.accepted = s.input.accepted ++ events)
    (hquiet : Quiet s.log ⟨source, events⟩)
    (hsource : source = .disconnect → s.inputClosed = true) :
    Gated { s.transact source input with holder := none } where
  log := by
    simp [Server.transact, haccepted, h.log]
  quiet := by
    simp only [Server.transact, haccepted, List.drop_left]
    exact h.quiet.concat hquiet
  closed := by
    rintro ⟨d, hd, hdsource⟩
    refine ⟨?_, fun k hk => nomatch hk⟩
    rcases List.mem_append.mp hd with hold | hnew
    · exact (h.closed ⟨d, hold, hdsource⟩).1
    · obtain rfl := List.mem_singleton.mp hnew
      exact hsource hdsource
  waiting := h.waiting
  holder k hk := nomatch hk

theorem Gated.transact_free (h : Gated s) (hfree : s.holder = none)
    {source : Source} {input : ServerInput} {events : List InputEvent}
    (haccepted : input.accepted = s.input.accepted ++ events)
    (hpress : ∀ e ∈ events, NoPress e) (hsource : source ≠ .disconnect) :
    Gated (s.transact source input) := by
  have hfree' : (s.transact source input).holder = none := hfree
  refine (h.transact haccepted (fun _ => hpress) fun heq => (hsource heq).elim).conns rfl rfl rfl
    hfree' fun _ => id

theorem Gated.gate (h : Gated s) (hstep : s.gate id = some s') :
    Gated s' := by
  rw [Server.gate] at hstep
  split at hstep
  · split at hstep
    · cases hstep
      exact h.close id
    · cases hstep
      exact h.conns rfl rfl rfl rfl fun _ => lookup_of_insert (by simp)
  · split at hstep
    · cases hstep
      exact h.close id
    · cases hstep
      exact h.conns rfl rfl rfl rfl fun _ => lookup_of_insert (by simp)
  · cases hstep

theorem Gated.beginDisconnect {supported : Bool} (h : Gated s)
    (hstep : s.beginDisconnect id supported = some s') : Gated s' := by
  rw [Server.beginDisconnect] at hstep
  split at hstep
  · split at hstep
    · cases hstep
      exact h.close id
    · cases hstep
      exact h.silent rfl rfl (fun _ => rfl) (fun k hk hpass _ => ⟨k, hk, hpass⟩)
        (fun _ _ _ => rfl) fun _ _ => rfl
  · cases hstep

theorem Gated.acquire (h : Gated s) (hstep : s.acquire id = some s') :
    Gated s' := by
  rw [Server.acquire] at hstep
  split at hstep
  next kind hfree hwaiting =>
    cases hstep
    refine h.silent rfl rfl (fun hc => hc) (fun k hk hpass _ => ?_) (fun k hk hkind => ?_)
      fun id' hid' => h.waiting id' (lookup_of_erase hid')
    · -- an input request still has to look at the gate
      obtain rfl := Option.some.inj hk
      obtain ⟨hstage, actions, rfl⟩ := hpass
      have hlocked : (if Kind.input actions = .disconnect then Stage.dispatching else .locked) =
          .locked := if_neg (by simp)
      exact (hstage hlocked).elim
    · obtain rfl := Option.some.inj hk
      obtain rfl : kind = .disconnect := hkind
      exact h.waiting id hwaiting
  · cases hstep

theorem Gated.check (h : Gated s) (hstep : s.check = some s') : Gated s' := by
  rw [Server.check] at hstep
  split at hstep
  next id kind attached hholder =>
    split at hstep
    · cases hstep
      exact h.detach hholder
    next hopen =>
      cases hstep
      refine h.silent rfl rfl (fun hc => hc) (fun k hk hpass hc => (hopen hc).elim)
        (fun k hk hkind => ?_) h.waiting
      obtain rfl := Option.some.inj hk
      exact h.holder _ hholder hkind
  · cases hstep

theorem Gated.execute {env : RequestEnv} (h : Gated s)
    (hstep : s.execute env = some s') : Gated s' := by
  rw [Server.execute] at hstep
  split at hstep
  next id kind attached hholder =>
    cases kind with
    | input actions =>
      cases hstep
      obtain ⟨events, haccepted⟩ := request_events s.input env (actions.getD [])
      refine h.transact haccepted (fun hdisconnect => ?_) fun heq => nomatch heq
      rcases hdisconnect with heq | hd
      · cases heq
      · exact ((h.closed hd).2 _ hholder ⟨by simp, actions, rfl⟩).elim
    | reset =>
      cases hstep
      obtain ⟨events, haccepted, hpress⟩ := release_events s.input env.cleanup
      exact h.transact haccepted (fun _ => hpress) fun heq => nomatch heq
    | disconnect =>
      obtain ⟨events, haccepted, hpress⟩ := release_events s.input env.cleanup
      have hgated := h.transact haccepted (fun _ => hpress)
        fun (_ : Source.disconnect = .disconnect) => h.holder _ hholder rfl
      cases attached with
      | true =>
        cases hstep
        exact hgated.conns rfl rfl rfl rfl fun _ => lookup_of_insert (by simp)
      | false =>
        cases hstep
        exact hgated
  · cases hstep

theorem Gated.respond {sent : Bool} (h : Gated s)
    (hstep : s.respond id sent = some s') : Gated s' := by
  rw [Server.respond] at hstep
  split at hstep
  · cases hstep
    split
    · exact h.close id
    · exact (h.close id).conns rfl rfl rfl rfl fun _ hid => hid
  · cases hstep

theorem Gated.finish {env : ReleaseEnv} {stopped : Bool} (h : Gated s)
    (hstep : s.finish env stopped = some s') : Gated s' := by
  rw [Server.finish] at hstep
  split at hstep
  · cases hstep
    exact h.conns rfl rfl rfl rfl fun _ => id
  next hfree =>
    split at hstep
    · cases hstep
      exact h.conns rfl rfl rfl rfl fun _ => id
    · cases hstep
      obtain ⟨events, haccepted, hpress⟩ := release_events s.input env
      have hsource : Source.shutdown ≠ .disconnect := by simp
      exact (h.transact_free hfree haccepted hpress hsource).conns rfl rfl rfl rfl fun _ => id
  · cases hstep

theorem Gated.step {a : Act} (h : Gated s) (hstep : s.step a = some s') :
    Gated s' := by
  cases a with
  | connect id kind =>
    simp only [Server.step] at hstep
    split at hstep
    · cases hstep
      exact h.conns rfl rfl rfl rfl fun _ => lookup_of_insert (by simp)
    · cases hstep
  | gate id => exact h.gate hstep
  | begin id supported => exact h.beginDisconnect hstep
  | acquire id => exact h.acquire hstep
  | giveUp id =>
    simp only [Server.step] at hstep
    split at hstep
    · cases hstep
      exact h.close id
    · cases hstep
  | check => exact h.check hstep
  | spawn =>
    simp only [Server.step] at hstep
    split at hstep
    next id kind attached hholder =>
      split at hstep
      · cases hstep
        refine h.silent rfl rfl (fun hc => hc) (fun k hk hpass _ => ?_) (fun k hk hkind => ?_)
          h.waiting
        · obtain rfl := Option.some.inj hk
          exact ⟨_, hholder, by simp, hpass.2⟩
        · obtain rfl := Option.some.inj hk
          exact h.holder _ hholder hkind
      · cases hstep
    · cases hstep
  | timeOut =>
    simp only [Server.step] at hstep
    split at hstep
    next id kind stage hholder =>
      split at hstep
      · cases hstep
      · cases hstep
        exact h.detach hholder
    · cases hstep
  | execute env => exact h.execute hstep
  | respond id sent => exact h.respond hstep
  | screenStart =>
    simp only [Server.step] at hstep
    split at hstep
    · split at hstep
      · cases hstep
        exact h.conns rfl rfl rfl rfl fun _ => id
      · cases hstep
    · split at hstep
      · cases hstep
        exact h.conns rfl rfl rfl rfl fun _ => id
      · cases hstep
    · cases hstep
  | screenEnd =>
    simp only [Server.step] at hstep
    split at hstep
    · cases hstep
    · cases hstep
      exact h.conns rfl rfl rfl rfl fun _ => id
  | watchdog pos env =>
    simp only [Server.step] at hstep
    split at hstep
    next hfree =>
      cases hstep
      obtain ⟨events, haccepted, hpress⟩ := watchdog_events s.input pos env
      exact h.transact_free hfree.2 haccepted hpress (by simp)
    · cases hstep
  | close shutdown =>
    simp only [Server.step] at hstep
    split at hstep
    · cases hstep
      exact h.silent rfl rfl (fun _ => rfl) (fun k hk hpass _ => ⟨k, hk, hpass⟩)
        (fun _ _ _ => rfl) fun _ _ => rfl
    · cases hstep
  | abort id =>
    simp only [Server.step] at hstep
    split at hstep
    · cases hstep
      exact h.close id
    · cases hstep
  | abortHolder =>
    simp only [Server.step] at hstep
    split at hstep
    next hholder =>
      cases hstep
      exact h.detach hholder
    · cases hstep
  | stopWatchdog =>
    simp only [Server.step] at hstep
    split at hstep
    · cases hstep
      exact h.conns rfl rfl rfl rfl fun _ => id
    · cases hstep
  | join =>
    simp only [Server.step] at hstep
    split at hstep
    · split at hstep
      · cases hstep
        exact h.conns rfl rfl rfl rfl fun _ => id
      · cases hstep
    · cases hstep
  | drain inTime =>
    simp only [Server.step] at hstep
    split at hstep
    · split at hstep
      · cases hstep
        exact h.conns rfl rfl rfl rfl fun _ => id
      · split at hstep
        · cases hstep
          exact h.conns rfl rfl rfl rfl fun _ => id
        · cases hstep
    · cases hstep
  | finish env stopped => exact h.finish hstep

/-! ### The end of a run -/

/-- The loop has been left, and all tasks are joined. -/
def Joined (s : Server) : Prop :=
  match s.phase with
  | .serving | .closing _ => False
  | _ => True

/-- The permits have come back, or the run has returned without an error. -/
def Drained (s : Server) : Prop :=
  match s.phase with
  | .drained _ | .returned _ true => True
  | _ => False

theorem Drained.joined (h : s.Drained) : s.Joined := by
  rw [Drained] at h
  rw [Joined]
  split at h
  next heq => simp [heq]
  next heq => simp [heq]
  · exact h.elim

/-- What is on record while every send is accepted, and who is left when the run ends. -/
structure Kept (s : Server) : Prop where
  recorded : s.input.Recorded
  detached : ∀ h, s.holder = some h → h.attached = false → h.stage = .running
  joined : s.Joined → s.conns = ∅ ∧ s.watchdog = false ∧
    ∀ h, s.holder = some h → h.attached = false
  drained : s.Drained → s.holder = none
  released : s.phase = .returned false true → ∀ item, ¬ Down backendEffect s.input.accepted item

theorem kept_new (now : ℕ) : Kept (new now) where
  recorded item h := (Balanced.nil item h).elim
  detached _ hh := nomatch hh
  joined h := False.elim h
  drained h := False.elim h
  released h := nomatch h

theorem Kept.busy (hbusy : ¬ s.Joined) (hphase : s'.phase = s.phase)
    (hrecorded : s'.input.Recorded)
    (hdetached : ∀ h, s'.holder = some h → h.attached = false → h.stage = .running) :
    Kept s' := by
  have hbusy' : ¬ s'.Joined := by
    rwa [Joined, hphase]
  refine ⟨hrecorded, hdetached, fun h => (hbusy' h).elim, fun h => (hbusy' h.joined).elim,
    fun h => (hbusy' ?_).elim⟩
  rw [Joined, h]
  trivial

section Steps

variable {s s' : Server}

variable {id : ℕ} {k : Holder}

theorem Kept.not_joined_of_conn (h : Kept s) {c : Conn}
    (hc : s.conns.lookup id = some c) : ¬ s.Joined := by
  intro hjoined
  rw [(h.joined hjoined).1] at hc
  cases (AList.lookup_empty id).symm.trans hc

theorem Kept.not_joined_of_attached (h : Kept s) (hk : s.holder = some k)
    (hattached : k.attached = true) : ¬ s.Joined := by
  intro hjoined
  cases ((h.joined hjoined).2.2 k hk).symm.trans hattached

theorem Kept.not_joined_of_stage (h : Kept s) (hk : s.holder = some k)
    (hstage : k.stage ≠ .running) : ¬ s.Joined := by
  intro hjoined
  exact hstage (h.detached k hk ((h.joined hjoined).2.2 k hk))

theorem detach_detached {k' : Holder} (hk : (s.detach k).holder = some k') :
    k'.stage = .running := by
  simp only [detach] at hk
  split at hk
  next hrunning =>
    obtain rfl := Option.some.inj hk
    exact hrunning
  · cases hk

theorem Kept.gate (h : Kept s) (hstep : s.gate id = some s') : Kept s' := by
  rw [Server.gate] at hstep
  split at hstep
  next hc =>
    have hbusy := h.not_joined_of_conn hc
    split at hstep
    · cases hstep
      exact .busy hbusy rfl h.recorded h.detached
    · cases hstep
      exact .busy hbusy rfl h.recorded h.detached
  next hc =>
    have hbusy := h.not_joined_of_conn hc
    split at hstep
    · cases hstep
      exact .busy hbusy rfl h.recorded h.detached
    · cases hstep
      exact .busy hbusy rfl h.recorded h.detached
  · cases hstep

theorem Kept.beginDisconnect {supported : Bool} (h : Kept s)
    (hstep : s.beginDisconnect id supported = some s') : Kept s' := by
  rw [Server.beginDisconnect] at hstep
  split at hstep
  next hc =>
    have hbusy := h.not_joined_of_conn hc
    split at hstep
    · cases hstep
      exact .busy hbusy rfl h.recorded h.detached
    · cases hstep
      exact .busy hbusy rfl h.recorded h.detached
  · cases hstep

theorem Kept.acquire (h : Kept s) (hstep : s.acquire id = some s') : Kept s' := by
  rw [Server.acquire] at hstep
  split at hstep
  next hfree hc =>
    cases hstep
    refine .busy (h.not_joined_of_conn hc) rfl h.recorded fun k hk hattached => ?_
    obtain rfl := Option.some.inj hk
    cases hattached
  · cases hstep

theorem Kept.check (h : Kept s) (hstep : s.check = some s') : Kept s' := by
  rw [Server.check] at hstep
  split at hstep
  next id kind attached hholder =>
    have hbusy := h.not_joined_of_stage hholder (by simp)
    split at hstep
    · cases hstep
      exact .busy hbusy rfl h.recorded fun k hk _ => detach_detached hk
    · cases hstep
      refine .busy hbusy rfl h.recorded fun k hk hattached => ?_
      obtain rfl := Option.some.inj hk
      cases h.detached _ hholder hattached
  · cases hstep

theorem Kept.respond {sent : Bool} (h : Kept s)
    (hstep : s.respond id sent = some s') : Kept s' := by
  rw [Server.respond] at hstep
  split at hstep
  next hc =>
    have hbusy := h.not_joined_of_conn hc
    cases hstep
    split
    · exact .busy hbusy rfl h.recorded h.detached
    · exact .busy hbusy rfl h.recorded h.detached
  · cases hstep

theorem Kept.executed (h : Kept s) (hk : s.holder = some k)
    (hinput : s'.input.Recorded) (hholder : s'.holder = none) (hphase : s'.phase = s.phase)
    (hwatchdog : s'.watchdog = s.watchdog)
    (hconns : s'.conns = s.conns ∨ k.attached = true) : Kept s' := by
  have hdrained : ¬ s.Drained := fun hd => nomatch hk.symm.trans (h.drained hd)
  have hnone (k' : Holder) (hk' : s'.holder = some k') : False :=
    nomatch hholder.symm.trans hk'
  refine ⟨hinput, fun k' hk' => (hnone k' hk').elim, fun hjoined => ?_, fun _ => hholder,
    fun hreturned => ?_⟩
  · rw [Joined, hphase] at hjoined
    refine ⟨?_, hwatchdog.trans (h.joined hjoined).2.1, fun k' hk' => (hnone k' hk').elim⟩
    rcases hconns with heq | hattached
    · exact heq.trans (h.joined hjoined).1
    · exact (h.not_joined_of_attached hk hattached hjoined).elim
  · refine (hdrained ?_).elim
    rw [Drained, ← hphase, hreturned]
    trivial

theorem Kept.execute {env : RequestEnv} (h : Kept s) (haccepts : env.cleanup.answers.reset = none)
    (hstep : s.execute env = some s') : Kept s' := by
  rw [Server.execute] at hstep
  split at hstep
  next id kind attached hholder =>
    cases kind with
    | input actions =>
      cases hstep
      exact h.executed hholder
        ((request_recorded_iff h.recorded env _).mpr (.inl haccepts)) rfl rfl rfl (.inl rfl)
    | reset =>
      cases hstep
      exact h.executed hholder (releaseInputs_recorded h.recorded) rfl rfl rfl (.inl rfl)
    | disconnect =>
      have hrecorded : (s.input.release env.cleanup).Recorded := releaseInputs_recorded h.recorded
      cases attached with
      | true =>
        cases hstep
        exact h.executed hholder hrecorded rfl rfl rfl (.inr rfl)
      | false =>
        cases hstep
        exact h.executed hholder hrecorded rfl rfl rfl (.inl rfl)
  · cases hstep

theorem not_holds_of_isEmpty {t : InputStateTracker} (h : t.isEmpty) (item : Item) :
    ¬ t.Holds item := by
  simp only [InputStateTracker.isEmpty, decide_eq_true_eq] at h
  cases item with
  | key code =>
    show code ∉ t.activeKeys
    rw [h.2.1]
    exact Finset.notMem_empty code
  | button b =>
    show b ∉ t.activeButtons
    rw [h.1]
    exact Finset.notMem_empty b

theorem not_down_release {input : ServerInput} {env : ReleaseEnv}
    (haccepts : env.answers.reset = none) (item : Item) :
    ¬ Down backendEffect (input.release env).accepted item := by
  obtain ⟨accepted, -, ⟨-, heq, -⟩ | ⟨hno, -⟩⟩ := releaseInputs_cases env input.tracker input.pos
  · have hlog : (input.release env).accepted = input.accepted ++ accepted ++
        [eventAt .reset input.pos 0 Modifiers.empty] := by
      rw [List.append_assoc, ← heq]
      rfl
    rw [hlog]
    exact not_down_of_reset rfl item
  · exact (hno haccepts).elim

theorem Kept.returned (h : Kept s) (hjoined : s.Joined) {d ok : Bool}
    (hrecorded : s'.input.Recorded) (hphase : s'.phase = .returned d ok)
    (hconns : s'.conns = s.conns) (hwatchdog : s'.watchdog = s.watchdog)
    (hholder : s'.holder = s.holder) (hok : ok = true → s.holder = none)
    (hreleased : s'.phase = .returned false true →
      ∀ item, ¬ Down backendEffect s'.input.accepted item) : Kept s' := by
  obtain ⟨hc, hw, hd⟩ := h.joined hjoined
  refine ⟨hrecorded, fun k hk => h.detached k (hholder ▸ hk), fun _ => ?_, fun hdrained => ?_,
    hreleased⟩
  · exact ⟨hconns.trans hc, hwatchdog.trans hw, fun k hk => hd k (hholder ▸ hk)⟩
  · rw [Drained, hphase] at hdrained
    cases ok with
    | true => exact hholder.trans (hok rfl)
    | false => exact hdrained.elim

theorem Kept.finish {env : ReleaseEnv} {stopped : Bool} (h : Kept s)
    (haccepts : env.answers.reset = none) (hstep : s.finish env stopped = some s') : Kept s' := by
  rw [Server.finish] at hstep
  split at hstep
  next hphase =>
    cases hstep
    have hdrained : s.Drained := by
      rw [Drained, hphase]
      trivial
    exact h.returned hdrained.joined h.recorded rfl rfl rfl rfl (fun _ => h.drained hdrained)
      fun heq => nomatch heq
  next hphase hfree =>
    have hdrained : s.Drained := by
      rw [Drained, hphase]
      trivial
    split at hstep
    next hempty =>
      cases hstep
      refine h.returned hdrained.joined h.recorded rfl rfl rfl rfl (fun _ => hfree) ?_
      intro _ item hdown
      exact not_holds_of_isEmpty hempty item (h.recorded item hdown)
    · cases hstep
      exact h.returned hdrained.joined (releaseInputs_recorded h.recorded) rfl rfl rfl rfl
        (fun _ => hfree) fun _ => not_down_release haccepts
  · cases hstep

end Steps

end Server

/-! ### Runs -/

def ReleaseEnv.Accepts (env : ReleaseEnv) : Prop :=
  env.answers.reset = none ∧ ∀ i, env.answers.ups i = none

/-- Every send of the step is accepted. -/
def Act.Accepts : Act → Prop
  | .execute env => (∀ i, env.answer i = none) ∧ env.cleanup.Accepts
  | .watchdog _ env => env.Accepts
  | .finish env _ => env.Accepts
  | _ => True

namespace Server

theorem Kept.step {s s' : Server} {a : Act} (h : Kept s) (ha : a.Accepts)
    (hstep : s.step a = some s') : Kept s' := by
  cases a with
  | connect id kind =>
    simp only [Server.step] at hstep
    split at hstep
    next hc =>
      cases hstep
      exact .busy (by simp [Joined, hc.1]) rfl h.recorded h.detached
    · cases hstep
  | gate id => exact h.gate hstep
  | begin id supported => exact h.beginDisconnect hstep
  | acquire id => exact h.acquire hstep
  | giveUp id =>
    simp only [Server.step] at hstep
    split at hstep
    next hc =>
      cases hstep
      exact .busy (h.not_joined_of_conn hc) rfl h.recorded h.detached
    · cases hstep
  | check => exact h.check hstep
  | spawn =>
    simp only [Server.step] at hstep
    split at hstep
    next hholder =>
      split at hstep
      · cases hstep
        refine .busy (h.not_joined_of_stage hholder (by simp)) rfl h.recorded fun k hk _ => ?_
        obtain rfl := Option.some.inj hk
        rfl
      · cases hstep
    · cases hstep
  | timeOut =>
    simp only [Server.step] at hstep
    split at hstep
    next hholder =>
      split at hstep
      · cases hstep
      · cases hstep
        exact .busy (h.not_joined_of_attached hholder rfl) rfl h.recorded
          fun k hk _ => detach_detached hk
    · cases hstep
  | execute env => exact h.execute ha.2.1 hstep
  | respond id sent => exact h.respond hstep
  | screenStart =>
    simp only [Server.step] at hstep
    split at hstep
    next hphase =>
      split at hstep
      · cases hstep
        exact .busy (by simp [Joined, hphase]) rfl h.recorded h.detached
      · cases hstep
    next hphase =>
      split at hstep
      · cases hstep
        exact .busy (by simp [Joined, hphase]) rfl h.recorded h.detached
      · cases hstep
    · cases hstep
  | screenEnd =>
    simp only [Server.step] at hstep
    split at hstep
    · cases hstep
    · cases hstep
      exact ⟨h.recorded, h.detached, h.joined, h.drained, h.released⟩
  | watchdog pos env =>
    simp only [Server.step] at hstep
    split at hstep
    next halive =>
      cases hstep
      refine .busy (fun hjoined => ?_) rfl ((perform_recorded_iff h.recorded
        (.watchdog pos env)).mpr trivial) h.detached
      cases (h.joined hjoined).2.1.symm.trans halive.1
    · cases hstep
  | close shutdown =>
    simp only [Server.step] at hstep
    split at hstep
    · cases hstep
      exact ⟨h.recorded, h.detached, False.elim, False.elim, fun heq => nomatch heq⟩
    · cases hstep
  | abort id =>
    simp only [Server.step] at hstep
    split at hstep
    next hc =>
      cases hstep
      exact .busy (h.not_joined_of_conn hc) rfl h.recorded h.detached
    · cases hstep
  | abortHolder =>
    simp only [Server.step] at hstep
    split at hstep
    next hholder =>
      cases hstep
      exact .busy (h.not_joined_of_attached hholder rfl) rfl h.recorded
        fun k hk _ => detach_detached hk
    · cases hstep
  | stopWatchdog =>
    simp only [Server.step] at hstep
    split at hstep
    next hphase =>
      cases hstep
      exact .busy (by simp [Joined, hphase]) rfl h.recorded h.detached
    · cases hstep
  | join =>
    simp only [Server.step] at hstep
    split at hstep
    · split at hstep
      next hdone =>
        cases hstep
        refine ⟨h.recorded, h.detached, fun _ => ⟨AList.ext hdone.1, hdone.2.1, fun k hk => ?_⟩,
          False.elim, fun heq => nomatch heq⟩
        have hk' := hdone.2.2
        rw [show s.holder = some k from hk, Option.all_some, Bool.not_eq_true'] at hk'
        exact hk'
      · cases hstep
    · cases hstep
  | drain inTime =>
    simp only [Server.step] at hstep
    split at hstep
    next hphase =>
      have hjoined : s.Joined := by
        rw [Joined, hphase]
        trivial
      split at hstep
      · cases hstep
        exact h.returned hjoined h.recorded rfl rfl rfl rfl nofun fun heq => nomatch heq
      · split at hstep
        next hjobs =>
          cases hstep
          refine ⟨h.recorded, h.detached, fun _ => h.joined hjoined, fun _ => ?_,
            fun heq => nomatch heq⟩
          -- a holder would be a job, and have a permit
          cases hholder : s.holder with
          | none => rfl
          | some k =>
            have hrunning := h.detached k hholder ((h.joined hjoined).2.2 k hholder)
            simp [jobs, hholder, hrunning] at hjobs
        · cases hstep
    · cases hstep
  | finish env stopped => exact h.finish ha.1 hstep

end Server

/-- **A disconnect gates the input**: from its release on, the backend accepts nothing that presses;
and a plain shutdown that returns without an error leaves nothing down, if every send was
accepted. -/
theorem agent_gated {now : ℕ} {as : List Act} {s : Server}
    (h : Machine.run Server.step (.new now) as = some s) :
    s.input.accepted = s.log.flatMap Entry.events ∧
      History.Each (fun before e _ => Quiet before e) s.log ∧
      ((∀ a ∈ as, a.Accepts) → s.phase = .returned false true →
        ∀ item, ¬ Down backendEffect s.input.accepted item) := by
  have hgated : s.Gated := Machine.run_inv Server.Gated.step (Server.gated_new now) h
  refine ⟨hgated.log, hgated.quiet, fun haccepts hreturned => ?_⟩
  have hkept : s.Kept := by
    refine (Machine.run_history (I := fun bs s => (∀ a ∈ bs, a.Accepts) → s.Kept)
      (fun {bs s a s'} hk hstep hbs => ?_) (fun _ => Server.kept_new now) h) haccepts
    exact (hk fun a ha => hbs a (List.mem_append_left _ ha)).step
      (hbs a (List.mem_append_right _ (.head _))) hstep
  exact hkept.released hreturned

/-- A button goes down, and the server is shut down. -/
def shutdownRun : List Act :=
  [.connect 0 (.input (some [.mouseDown .left])), .gate 0, .acquire 0, .check, .spawn,
    .execute (.always none), .close true, .stopWatchdog, .join, .drain true,
    .finish (.always none) true]

theorem agent_gated_shutdown : ∃ s, Machine.run Server.step (.new 0) shutdownRun = some s ∧
    s.phase = .returned false true ∧ ∀ item, ¬ Down backendEffect s.input.accepted item := by
  have hrun : (Machine.run Server.step (.new 0) shutdownRun).map (·.phase) =
      some (.returned false true) := by
    decide
  obtain ⟨s, hs, hphase⟩ := Option.map_eq_some_iff.mp hrun
  have haccepts : ∀ a ∈ shutdownRun, a.Accepts := by
    simp [shutdownRun, Act.Accepts, ReleaseEnv.Accepts, RequestEnv.always, ReleaseEnv.always]
  exact ⟨s, hs, hphase, (agent_gated hs).2.2 haccepts hphase⟩

end MahoRD.Agent

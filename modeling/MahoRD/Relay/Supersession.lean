/-
MahoRD/Relay/Supersession.lean

What becomes of a registration when the connection it superseded ends.
`drop_host` goes by the host id alone, and `host_socket` calls it on its way out
as well as on its way in; so the end of the old connection removes the entry
of the new one and sweeps the sessions opened through it.  (Forwarding from a
client does compare the channels, in `forward_from_client`.)

A host task goes through four phases; the removal lies between the third and
the last.
-/
import MahoRD.Relay.Isolation

namespace MahoRD.Relay

/-- Before the sender is inserted, in the loop, about to remove the entry on
the way out, and after that. -/
def HostPc.phase : HostPc → ℕ
  | register | greet | dropRemove false | dropCollect false | dropSessions false _ | insert => 0
  | loop | accept _ | forward _ _ | expire _ => 1
  | dropRemove true => 2
  | dropCollect true | dropSessions true _ | done => 3

theorem HostPc.phase_of_live {pc : HostPc} (h : pc.Live) : pc.phase = 1 := by
  cases pc <;> simp_all [Live, phase]

variable {env : Env}

/-! ### What a step does to the host tasks and the host map -/

/-- The change of one host task: from the loop on, the host id stays and the
phases come one after the other. -/
structure HostMove (t t' : HostTask) : Prop where
  hostId : 1 ≤ t.pc.phase → t'.hostId = t.hostId
  le : 1 ≤ t.pc.phase → t.pc.phase ≤ t'.pc.phase
  le_succ : 1 ≤ t.pc.phase → t'.pc.phase ≤ t.pc.phase + 1

/-- What a step does to the host tasks and the host map: a task leaves the
third phase only by removing the entry of its host id, and an entry comes only
from a task that enters its loop. -/
structure HostsStep (s s' : State) : Prop where
  task : ∀ h t, s.hostTasks.lookup h = some t → ∃ t', s'.hostTasks.lookup h = some t' ∧
    HostMove t t' ∧ (t.pc.phase = 2 → t'.pc.phase = 3 → s'.hosts.lookup t.hostId = none)
  entry : ∀ hostId h, s'.hosts.lookup hostId = some h → s.hosts.lookup hostId = some h ∨
    ∃ t t', s.hostTasks.lookup h = some t ∧ t.pc.phase = 0 ∧
      s'.hostTasks.lookup h = some t' ∧ t'.pc.phase = 1

variable {t t' : HostTask} {s s' : State} {h : HostId}

theorem HostMove.of_pc (hi : t'.hostId = t.hostId)
    (hpc : t'.pc.phase = t.pc.phase) : HostMove t t' :=
  ⟨fun _ => hi, fun _ => hpc.ge, fun _ => by omega⟩

theorem HostsStep.of_eq (hh : s'.hosts = s.hosts)
    (ht : s'.hostTasks = s.hostTasks) : HostsStep s s' where
  task h t hl := ⟨t, ht ▸ hl, .of_pc rfl rfl, fun h2 h3 => by omega⟩
  entry _ _ hl := Or.inl (hh ▸ hl)

theorem task_of_insert
    (hl : s.hostTasks.lookup h = some t) (ht : s'.hostTasks = s.hostTasks.insert h t')
    (hmove : HostMove t t')
    (hgone : t.pc.phase = 2 → t'.pc.phase = 3 → s'.hosts.lookup t.hostId = none) :
    ∀ i u, s.hostTasks.lookup i = some u → ∃ u', s'.hostTasks.lookup i = some u' ∧
      HostMove u u' ∧ (u.pc.phase = 2 → u'.pc.phase = 3 → s'.hosts.lookup u.hostId = none) := by
  intro i u hu
  rw [ht, Table.lookup_insert]
  split
  next heq =>
    rw [heq, hl] at hu
    obtain rfl := Option.some.inj hu
    exact ⟨t', rfl, hmove, hgone⟩
  · exact ⟨u, hu, .of_pc rfl rfl, fun h2 h3 => by omega⟩

theorem HostsStep.of_setHost
    (hl : s.hostTasks.lookup h = some t) (ht : s'.hostTasks = s.hostTasks.insert h t')
    (hh : s'.hosts = s.hosts) (hmove : HostMove t t')
    (hphase : t.pc.phase = 2 → t'.pc.phase ≠ 3) : HostsStep s s' where
  task := task_of_insert hl ht hmove fun h2 h3 => absurd h3 (hphase h2)
  entry _ _ hi := Or.inl (hh ▸ hi)

theorem HostsStep.of_sendHost {s₁ : State} {m : Message}
    (hs : s.sendHost h m = some s₁) (hh : s'.hosts = s₁.hosts)
    (ht : s'.hostTasks = s₁.hostTasks) : HostsStep s s' := by
  unfold State.sendHost at hs
  split at hs
  next t hl =>
    split at hs
    · obtain rfl := Option.some.inj hs
      exact .of_setHost hl ht hh (.of_pc rfl rfl) fun h2 => by show t.pc.phase ≠ 3; omega
    · cases hs
  · cases hs

/-! ### Client tasks -/

theorem hostsStep_clientIncoming {c : ClientId} {t : ClientTask} {m : Incoming}
    (hs : clientIncoming env s c t m = some s') : HostsStep s s' := by
  simp only [clientIncoming] at hs
  repeat' split at hs
  all_goals first
    | exact Option.some.inj hs ▸ .of_eq rfl rfl
    | cases hs

theorem hostsStep_clientStep {c : ClientId} {t : ClientTask} {sent : Bool}
    {fresh : Uuid} (hs : clientStep env s c t sent fresh = some s') : HostsStep s s' := by
  rcases hpc : t.pc with - | - | - | - | - | - | host | host | host | host | ⟨host, bytes⟩ |
    ⟨host, bytes⟩ | ⟨host, bytes⟩ | farewell | -
  case start =>
    obtain ⟨rates, hrates⟩ := allowConnect_snd s env.config.connectsPerMinute t.ip
    rcases hallow : s.allowConnect env.config.connectsPerMinute t.ip with ⟨allowed, s₁⟩
    obtain rfl : s₁ = { s with rates } := by rw [← hrates, hallow]
    cases allowed
    all_goals
      simp only [clientStep, hpc, hallow] at hs
      exact Option.some.inj hs ▸ .of_eq rfl rfl
  case incoming | send =>
    simp only [clientStep, hpc] at hs
    split at hs
    · exact Option.some.inj hs ▸ .of_eq rfl rfl
    next s₁ hsend => exact Option.some.inj hs ▸ .of_sendHost hsend rfl rfl
  case close =>
    simp only [clientStep, hpc] at hs
    cases farewell
    all_goals exact Option.some.inj hs ▸ .of_eq rfl rfl
  all_goals
    simp only [clientStep, hpc] at hs
    repeat' split at hs
  all_goals first
    | exact Option.some.inj hs ▸ .of_eq rfl rfl
    | cases hs

/-! ### Host tasks -/

theorem HostMove.of_early (h : t.pc.phase = 0) : HostMove t t' :=
  ⟨fun h1 => by omega, fun h1 => by omega, fun h1 => by omega⟩

theorem HostMove.of_loop (h : t.pc.phase = 1) (hi : t'.hostId = t.hostId)
    (hpc : t'.pc.phase = 1 ∨ t'.pc.phase = 2) : HostMove t t' :=
  ⟨fun _ => hi, fun _ => by omega, fun _ => by omega⟩

theorem hostsStep_hostIncoming
    (hl : s.hostTasks.lookup h = some t) {m : Incoming}
    (hs : hostIncoming env s h t m = some s') : HostsStep s s' := by
  rcases hpc : t.pc with - | - | exit | exit | ⟨exit, doomed⟩ | - | - | client |
    ⟨client, bytes⟩ | key | -
  case register =>
    have hphase : t.pc.phase = 0 := by rw [hpc]; rfl
    simp only [hostIncoming, hpc] at hs
    repeat' split at hs
    all_goals
      exact Option.some.inj hs ▸ .of_setHost hl rfl rfl (.of_early hphase) (by omega)
  case loop =>
    have hphase : t.pc.phase = 1 := by rw [hpc]; rfl
    have hmove : ∀ t' : HostTask, t'.hostId = t.hostId →
        (t'.pc.phase = 1 ∨ t'.pc.phase = 2) → ∀ s₁ : State, s₁.hosts = s.hosts →
        s₁.hostTasks = s.hostTasks.insert h t' → HostsStep s s₁ :=
      fun t' hi hp s₁ hh ht => .of_setHost hl ht hh (.of_loop hphase hi hp) (by omega)
    cases m with
    | text text =>
      simp only [hostIncoming, hpc] at hs
      obtain rfl := Option.some.inj hs
      unfold handleHostText
      repeat' split
      all_goals exact hmove _ (by simp) (by simp [HostPc.phase]) _ rfl rfl
    | binary bytes =>
      simp only [hostIncoming, hpc] at hs
      obtain rfl := Option.some.inj hs
      simp only [forwardFromHost]
      repeat' split
      all_goals exact hmove _ (by simp) (by simp [HostPc.phase]) _ rfl rfl
    | ping payload | pong | closed =>
      simp only [hostIncoming, hpc] at hs
      exact Option.some.inj hs ▸ hmove _ (by simp) (by simp [HostPc.phase]) _ rfl rfl
  all_goals simp [hostIncoming, hpc] at hs

theorem hostsStep_hostStep
    (hl : s.hostTasks.lookup h = some t) {sent : Bool}
    (hs : hostStep env s h t sent = some s') : HostsStep s s' := by
  rcases hpc : t.pc with - | - | exit | exit | ⟨exit, - | ⟨id, doomed⟩⟩ | - | - | client |
    ⟨client, bytes⟩ | key | -
  case register | loop | done => simp [hostStep, hpc] at hs
  case greet =>
    have hphase : t.pc.phase = 0 := by rw [hpc]; rfl
    simp only [hostStep, hpc] at hs
    split at hs
    all_goals
      exact Option.some.inj hs ▸ .of_setHost hl rfl rfl (.of_early hphase) (by omega)
  case dropRemove =>
    simp only [hostStep, hpc] at hs
    have hmove : HostMove t { t with pc := .dropCollect exit } := by
      cases exit
      · exact .of_early (by rw [hpc]; rfl)
      · exact ⟨fun _ => rfl, fun _ => by simp [hpc, HostPc.phase],
          fun _ => by simp [hpc, HostPc.phase]⟩
    obtain rfl := Option.some.inj hs
    exact ⟨task_of_insert hl rfl hmove fun _ _ => AList.lookup_erase _ _,
      fun hostId i hi => Or.inl (Table.lookup_erase_eq_some.mp hi).2⟩
  case dropCollect | dropSessions.nil | dropSessions.cons =>
    simp only [hostStep, hpc] at hs
    cases exit
    · exact Option.some.inj hs ▸ .of_setHost hl rfl rfl (.of_early (by rw [hpc]; rfl))
        (by simp [hpc, HostPc.phase])
    · exact Option.some.inj hs ▸ .of_setHost hl rfl rfl (.of_pc rfl (by rw [hpc]; rfl))
        (by simp [hpc, HostPc.phase])
  case insert =>
    have hphase : t.pc.phase = 0 := by rw [hpc]; rfl
    simp only [hostStep, hpc] at hs
    obtain rfl := Option.some.inj hs
    refine ⟨task_of_insert hl rfl (.of_early hphase) (by omega), ?_⟩
    intro hostId i hi
    have hi' : (s.hosts.insert t.hostId h).lookup hostId = some i := hi
    rw [Table.lookup_insert] at hi'
    split at hi'
    · obtain rfl := Option.some.inj hi'
      exact Or.inr ⟨t, _, hl, hphase, AList.lookup_insert _, rfl⟩
    · exact Or.inl hi'
  case accept =>
    simp only [hostStep, hpc] at hs
    have hmove : HostMove t { t with pc := .loop } := .of_pc rfl (by rw [hpc]; rfl)
    split at hs
    all_goals
      exact Option.some.inj hs ▸ .of_setHost hl rfl rfl hmove (by simp [hpc, HostPc.phase])
  case forward =>
    simp only [hostStep, hpc] at hs
    have hmove : HostMove t { t with pc := .loop } := .of_pc rfl (by rw [hpc]; rfl)
    obtain rfl := Option.some.inj hs
    unfold State.sendClient
    repeat' split
    all_goals exact .of_setHost hl rfl rfl hmove (by simp [hpc, HostPc.phase])
  case expire =>
    simp only [hostStep, hpc] at hs
    exact Option.some.inj hs ▸ .of_setHost hl rfl rfl (.of_pc (by simp) (by rw [hpc]; rfl))
      (by simp [hpc, HostPc.phase])

/-- **Every step of the relay moves each host task along its phases.** -/
theorem hostsStep {a : Action} (hs : step env s a = some s') : HostsStep s s' := by
  cases a with
  | tick duration => exact Option.some.inj hs ▸ .of_eq rfl rfl
  | hostConnect h =>
    simp only [step, Option.ite_none_left_eq_some, Option.some.injEq] at hs
    obtain ⟨hnew, rfl⟩ := hs
    refine ⟨fun i t hl => ⟨t, ?_, .of_pc rfl rfl, fun h2 h3 => by omega⟩,
      fun hostId i hi => Or.inl hi⟩
    have hne : i ≠ h := by
      rintro rfl
      exact hnew (AList.lookup_isSome.mp (by rw [hl]; rfl))
    rw [State.setHost, Table.lookup_insert, if_neg hne, hl]
  | hostIncoming h m =>
    obtain ⟨t, hl, hs⟩ := Option.bind_eq_some_iff.mp hs
    exact hostsStep_hostIncoming hl hs
  | hostStep h sent =>
    obtain ⟨t, hl, hs⟩ := Option.bind_eq_some_iff.mp hs
    exact hostsStep_hostStep hl hs
  | hostPing h =>
    obtain ⟨t, hl, hs⟩ := Option.bind_eq_some_iff.mp hs
    obtain ⟨⟨hpc, -⟩, rfl⟩ := by simpa using hs
    exact .of_setHost hl rfl rfl (.of_pc (by simp) (by simp)) (by simp [hpc, HostPc.phase])
  | hostIdle h =>
    obtain ⟨t, hl, hs⟩ := Option.bind_eq_some_iff.mp hs
    obtain ⟨⟨hpc, -⟩, rfl⟩ := by simpa using hs
    exact .of_setHost hl rfl rfl (.of_loop (by rw [hpc]; rfl) rfl (Or.inr rfl))
      (by simp [hpc, HostPc.phase])
  | hostWrite h sent =>
    obtain ⟨t, hl, hs⟩ := Option.bind_eq_some_iff.mp hs
    split at hs
    · cases hs
    · split at hs
      all_goals
        exact Option.some.inj hs ▸ .of_setHost hl rfl rfl (.of_pc rfl rfl)
          fun h2 => by show t.pc.phase ≠ 3; omega
  | clientConnect c hostId ip =>
    simp only [step, Option.ite_none_left_eq_some, Option.some.injEq] at hs
    exact hs.2 ▸ .of_eq rfl rfl
  | clientIncoming c m =>
    obtain ⟨t, -, hs⟩ := Option.bind_eq_some_iff.mp hs
    exact hostsStep_clientIncoming hs
  | clientStep c sent fresh =>
    obtain ⟨t, -, hs⟩ := Option.bind_eq_some_iff.mp hs
    exact hostsStep_clientStep hs
  | clientAcceptTimeout c | clientWrite c sent | clientClosed c | clientIdle c =>
    obtain ⟨t, -, hs⟩ := Option.bind_eq_some_iff.mp hs
    repeat' split at hs
    all_goals first
      | exact Option.some.inj hs ▸ .of_eq rfl rfl
      | cases hs

/-! ### Supersession -/

theorem entered_of_entry {actions : List Action}
    (h : Machine.run (step env) State.init actions = some s) :
    ∀ hostId i, s.hosts.lookup hostId = some i →
      ∃ t, s.hostTasks.lookup i = some t ∧ 1 ≤ t.pc.phase := by
  refine Machine.run_inv (I := fun s => ∀ hostId i, s.hosts.lookup hostId = some i →
    ∃ t, s.hostTasks.lookup i = some t ∧ 1 ≤ t.pc.phase) ?_ (by simp [State.init]) h
  intro s a s' hinv hs hostId i hi
  have hstep := hostsStep hs
  rcases hstep.entry hostId i hi with hold | ⟨-, t', -, -, hl', hphase⟩
  · obtain ⟨t, hl, hphase⟩ := hinv hostId i hold
    obtain ⟨t', hl', hmove, -⟩ := hstep.task i t hl
    exact ⟨t', hl', hphase.trans (hmove.le hphase)⟩
  · exact ⟨t', hl', hphase.ge⟩

/-- `h₁` has entered its loop under the host id, and once it has gone on to the
last phase the entry is not `h₂`, which has entered its loop as well. -/
structure Superseded (hostId : String) (h₁ h₂ : HostId) (s : State) : Prop where
  new : ∃ t, s.hostTasks.lookup h₂ = some t ∧ 1 ≤ t.pc.phase
  old : ∃ t, s.hostTasks.lookup h₁ = some t ∧ t.hostId = hostId ∧ 1 ≤ t.pc.phase ∧
    (t.pc.phase = 3 → s.hosts.lookup hostId ≠ some h₂)

theorem Superseded.step {hostId : String} {h₁ h₂ : HostId} {a : Action}
    (h : Superseded hostId h₁ h₂ s) (hs : step env s a = some s') :
    Superseded hostId h₁ h₂ s' := by
  have hstep := hostsStep hs
  obtain ⟨t₂, hl₂, hphase₂⟩ := h.new
  obtain ⟨t₁, hl₁, hid, hphase₁, hgone⟩ := h.old
  obtain ⟨t₂', hl₂', hmove₂, -⟩ := hstep.task h₂ t₂ hl₂
  obtain ⟨t₁', hl₁', hmove₁, hremoved⟩ := hstep.task h₁ t₁ hl₁
  refine ⟨⟨t₂', hl₂', hphase₂.trans (hmove₂.le hphase₂)⟩,
    ⟨t₁', hl₁', (hmove₁.hostId hphase₁).trans hid, hphase₁.trans (hmove₁.le hphase₁), ?_⟩⟩
  intro h3 hentry
  by_cases hlast : t₁.pc.phase = 3
  · -- `h₂` cannot come back: it would have to be before its loop
    rcases hstep.entry hostId h₂ hentry with hold | ⟨t, -, hl, hzero, -⟩
    · exact hgone hlast hold
    · obtain rfl := Option.some.inj (hl.symm.trans hl₂)
      omega
  · have hle := hmove₁.le hphase₁
    have hsucc := hmove₁.le_succ hphase₁
    have hnone := hremoved (by omega) h3
    rw [hid, hentry] at hnone
    cases hnone

/-- **A superseded connection takes the registration of its successor with it.**
In every run in which host connection `h₁` is in its loop under a host id for
which `h₂` is registered, and in which the task of `h₁` then comes to its end,
at whatever later point: `h₂` is no longer registered when it has. -/
theorem superseded_unregistered {actions₁ actions₂ : List Action} {s₁ s₂ : State}
    {hostId : String} {h₁ h₂ : HostId} {t₁ t₁' : HostTask}
    (hrun₁ : Machine.run (step env) State.init actions₁ = some s₁)
    (hold : s₁.hostTasks.lookup h₁ = some t₁) (hlive : t₁.pc.Live) (hid : t₁.hostId = hostId)
    (hnew : s₁.hosts.lookup hostId = some h₂)
    (hrun₂ : Machine.run (step env) s₁ actions₂ = some s₂)
    (hend : s₂.hostTasks.lookup h₁ = some t₁') (hdone : t₁'.pc = .done) :
    s₂.hosts.lookup hostId ≠ some h₂ := by
  have hphase := HostPc.phase_of_live hlive
  have hstart : Superseded hostId h₁ h₂ s₁ :=
    ⟨entered_of_entry hrun₁ hostId h₂ hnew,
      ⟨t₁, hold, hid, hphase.ge, fun h3 => by omega⟩⟩
  obtain ⟨t, hl, -, -, hgone⟩ :=
    (Machine.run_inv (fun hi hs => Superseded.step hi hs) hstart hrun₂).old
  obtain rfl := Option.some.inj (hl.symm.trans hend)
  exact hgone (by rw [hdone]; rfl)

/-- Hosts 0 and 1 register as `host-1` one after the other, and client 0 opens
a session through host 1. -/
def supersede : List Action := registers 0 ++ registers 1 ++ connects 1

/-- The socket of host 0 closes, and its task runs to the end. -/
def oldEnds : List Action :=
  [.hostIncoming 0 .closed, .hostStep 0 true, .hostStep 0 true, .hostStep 0 true, .hostStep 0 true]

/-- What can be told of the registration, the tasks and the session. -/
structure Outcome where
  registered : Option HostId
  old : Option HostPc
  new : Option HostPc
  client : Option ClientPc
  session : Option Session
  deriving DecidableEq

def outcome (s : State) : Outcome where
  registered := s.hosts.lookup "host-1"
  old := (s.hostTasks.lookup 0).map (·.pc)
  new := (s.hostTasks.lookup 1).map (·.pc)
  client := (s.clientTasks.lookup 0).map (·.pc)
  session := s.sessions.lookup knownId.toText

theorem run_supersede : ∃ s₁ s₂ t₁ t₁',
    Machine.run (step knownEnv) State.init supersede = some s₁ ∧
    s₁.hostTasks.lookup 0 = some t₁ ∧ t₁.pc = .loop ∧ t₁.hostId = "host-1" ∧
    outcome s₁ = ⟨some 1, some .loop, some .loop, some (.loop 1),
      some ⟨"host-1", 0, false, 0⟩⟩ ∧
    Machine.run (step knownEnv) s₁ oldEnds = some s₂ ∧
    s₂.hostTasks.lookup 0 = some t₁' ∧ t₁'.pc = .done ∧
    outcome s₂ = ⟨none, some .done, some .loop, some (.loop 1), none⟩ := by
  have h₁ : (Machine.run (step knownEnv) State.init supersede).map
      (fun s => ((s.hostTasks.lookup 0).map fun t => (t.pc, t.hostId), outcome s))
      = some (some (.loop, "host-1"), ⟨some 1, some .loop, some .loop, some (.loop 1),
          some ⟨"host-1", 0, false, 0⟩⟩) := by
    decide
  have h₂ : (Machine.run (step knownEnv) State.init (supersede ++ oldEnds)).map outcome
      = some ⟨none, some .done, some .loop, some (.loop 1), none⟩ := by
    decide
  obtain ⟨s₁, hs₁, hout₁⟩ := Option.map_eq_some_iff.mp h₁
  obtain ⟨s₂, hs₂, hout₂⟩ := Option.map_eq_some_iff.mp h₂
  obtain ⟨s₁', hs₁', hrest⟩ := Machine.run_append_eq_some.mp hs₂
  obtain rfl := Option.some.inj (hs₁.symm.trans hs₁')
  obtain ⟨ht₁, hout₁⟩ := Prod.mk.inj hout₁
  obtain ⟨t₁, hl₁, ht₁⟩ := Option.map_eq_some_iff.mp ht₁
  obtain ⟨hpc, hid⟩ := Prod.mk.inj ht₁
  obtain ⟨t₁', hl₁', hpc'⟩ := Option.map_eq_some_iff.mp (congrArg Outcome.old hout₂)
  exact ⟨s₁, s₂, t₁, t₁', hs₁, hl₁, hpc, hid, hout₁, hrest, hl₁', hpc', hout₂⟩

/-- `superseded_unregistered` in this run. -/
theorem superseded_unregistered_oldEnds :
    ∃ s₁ s₂, Machine.run (step knownEnv) State.init supersede = some s₁ ∧
      Machine.run (step knownEnv) s₁ oldEnds = some s₂ ∧
      s₂.hosts.lookup "host-1" ≠ some 1 := by
  obtain ⟨s₁, s₂, t₁, t₁', hrun₁, hl₁, hpc, hid, hout₁, hrun₂, hl₁', hdone, -⟩ := run_supersede
  exact ⟨s₁, s₂, hrun₁, hrun₂, superseded_unregistered hrun₁ hl₁ (by simp [hpc, HostPc.Live]) hid
    (congrArg Outcome.registered hout₁) hrun₂ hl₁' hdone⟩

/-- The successor loses its entry and its session, while it and the client of
the session are still in their loops. -/
theorem registration_lost :
    ∃ s₁ s₂, Machine.run (step knownEnv) State.init supersede = some s₁ ∧
      s₁.hosts.lookup "host-1" = some 1 ∧
      Machine.run (step knownEnv) s₁ oldEnds = some s₂ ∧
      outcome s₂ = ⟨none, some .done, some .loop, some (.loop 1), none⟩ := by
  obtain ⟨s₁, s₂, -, -, hrun₁, -, -, -, hout₁, hrun₂, -, -, hout₂⟩ := run_supersede
  exact ⟨s₁, s₂, hrun₁, congrArg Outcome.registered hout₁, hrun₂, hout₂⟩

end MahoRD.Relay

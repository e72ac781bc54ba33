/-
MahoRD/Relay/SessionCap.lean

The number of sessions a host may have.  `client_socket` counts the sessions of
the host and inserts its own in two operations on the map, so what the count
must leave room for are the sessions there are and those that other tasks have
already counted themselves in for: the tasks of the host at `openSession`.

Both together are the host's load.  No operation of the relay adds to a load
but a passed check, and the insertion that follows it moves one from the tasks
to the map.
-/
import MahoRD.Relay.Isolation

namespace MahoRD.Relay

/-- The client tasks that have passed the limit check for the host and not
inserted their session. -/
def State.opening (s : State) (hostId : String) : ℕ :=
  Table.count (fun _ t => t.pc = .openSession ∧ t.hostId = hostId) s.clientTasks

def State.load (s : State) (hostId : String) : ℕ := s.sessionCount hostId + s.opening hostId

variable {env : Env}

/-! ### What a step does to the load -/

/-- No host's load grows. -/
def Lighter (s s' : State) : Prop := ∀ hostId, s'.load hostId ≤ s.load hostId

variable {s s' : State} {c : ClientId} {t : ClientTask} {h : HostId}

theorem Lighter.of_eq (hs : s'.sessions = s.sessions)
    (hc : s'.clientTasks = s.clientTasks) : Lighter s s' := by
  intro hostId
  rw [State.load, State.load, State.sessionCount, State.opening, hs, hc]
  rfl

theorem Lighter.trans {t u : State} (h : Lighter s t) (h' : Lighter t u) : Lighter s u :=
  fun hostId => (h' hostId).trans (h hostId)

theorem Lighter.removeSession {key : String}
    (hs : s'.sessions = s.sessions.erase key) (hc : s'.clientTasks = s.clientTasks) :
    Lighter s s' := by
  intro hostId
  rw [State.load, State.load, State.sessionCount, State.opening, hs, hc]
  exact Nat.add_le_add_right
    (Table.count_erase_le (fun _ x => decide (x.hostId = hostId)) s.sessions key) _

theorem Lighter.setClient {t' : ClientTask}
    (hl : s.clientTasks.lookup c = some t) (hs : s'.sessions = s.sessions)
    (hc : s'.clientTasks = s.clientTasks.insert c t')
    (hpc : t'.pc = .openSession → t.pc = .openSession ∧ t'.hostId = t.hostId) :
    Lighter s s' := by
  intro hostId
  rw [State.load, State.load, State.sessionCount, State.opening, hs, hc]
  refine Nat.add_le_add_left (Table.count_insert_le hl fun ht' => ?_) _
  obtain ⟨hopen, hid⟩ := of_decide_eq_true ht'
  obtain ⟨hopen', hid'⟩ := hpc hopen
  exact decide_eq_true ⟨hopen', hid' ▸ hid⟩

theorem Lighter.addClient
    (hs : s'.sessions = s.sessions) (hc : s'.clientTasks = s.clientTasks.insert c t)
    (hpc : t.pc ≠ .openSession) : Lighter s s' := by
  intro hostId
  rw [State.load, State.load, State.sessionCount, State.opening, hs, hc, Table.count_insert,
    if_neg (by simp [hpc]), Nat.zero_add]
  exact Nat.add_le_add_left (Table.count_erase_le _ _ _) _

theorem Lighter.setSession {key : String} {x x' : Session}
    (hl : s.sessions.lookup key = some x) (hs : s'.sessions = s.sessions.insert key x')
    (hc : s'.clientTasks = s.clientTasks) (hid : x'.hostId = x.hostId) : Lighter s s' := by
  intro hostId
  rw [State.load, State.load, State.opening, hc]
  refine Nat.add_le_add_right ?_ _
  show Table.count (fun _ y => decide (y.hostId = hostId)) s'.sessions ≤ _
  rw [hs]
  exact Table.count_insert_le hl fun hx => by rw [← hid]; exact hx

theorem lighter_sendClient (s : State) (c : ClientId) (m : Message) :
    Lighter s (s.sendClient c m) := by
  unfold State.sendClient
  split
  next t hl =>
    split
    · exact .of_eq rfl rfl
    · exact .setClient hl rfl rfl fun hopen => ⟨hopen, rfl⟩
  · exact .of_eq rfl rfl

theorem sendHost_maps {m : Message} (hs : s.sendHost h m = some s') :
    s'.sessions = s.sessions ∧ s'.clientTasks = s.clientTasks := by
  unfold State.sendHost at hs
  split at hs
  · split at hs
    · exact Option.some.inj hs ▸ ⟨rfl, rfl⟩
    · cases hs
  · cases hs

/-! ### Host tasks -/

theorem lighter_hostIncoming {t : HostTask} {m : Incoming}
    (hs : hostIncoming env s h t m = some s') : Lighter s s' := by
  rcases hpc : t.pc with - | - | exit | exit | ⟨exit, doomed⟩ | - | - | client |
    ⟨client, bytes⟩ | key | -
  case register =>
    simp only [hostIncoming, hpc] at hs
    repeat' split at hs
    all_goals exact Option.some.inj hs ▸ .of_eq rfl rfl
  case loop =>
    simp only [hostIncoming, hpc] at hs
    cases m with
    | text text =>
      obtain rfl := Option.some.inj hs
      unfold handleHostText
      split
      case h_4 =>
        split
        · exact .of_eq rfl rfl
        next x hl =>
          split
          · exact .of_eq rfl rfl
          · exact .setSession hl rfl rfl rfl
      all_goals exact .of_eq rfl rfl
    | binary bytes =>
      obtain rfl := Option.some.inj hs
      simp only [forwardFromHost]
      repeat' split
      all_goals exact .of_eq rfl rfl
    | ping payload | pong | closed => exact Option.some.inj hs ▸ .of_eq rfl rfl
  all_goals simp [hostIncoming, hpc] at hs

theorem lighter_hostStep {t : HostTask} {sent : Bool}
    (hs : hostStep env s h t sent = some s') : Lighter s s' := by
  rcases hpc : t.pc with - | - | exit | exit | ⟨exit, - | ⟨id, doomed⟩⟩ | - | - | client |
    ⟨client, bytes⟩ | key | -
  all_goals simp only [hostStep, hpc] at hs
  case dropSessions.cons | expire => exact Option.some.inj hs ▸ .removeSession rfl rfl
  case accept =>
    split at hs
    next c hc =>
      exact Option.some.inj hs ▸ .setClient hc rfl rfl fun hopen => ⟨hopen, rfl⟩
    · exact Option.some.inj hs ▸ .of_eq rfl rfl
  case forward =>
    obtain rfl := Option.some.inj hs
    exact .trans (.of_eq rfl rfl) (lighter_sendClient _ _ _)
  all_goals
    repeat' split at hs
  all_goals first
    | exact Option.some.inj hs ▸ .of_eq rfl rfl
    | cases hs

/-! ### Client tasks -/

theorem lighter_clientIncoming {m : Incoming}
    (hl : s.clientTasks.lookup c = some t) (hs : clientIncoming env s c t m = some s') :
    Lighter s s' := by
  simp only [clientIncoming] at hs
  repeat' split at hs
  all_goals first
    | exact Option.some.inj hs ▸ .of_eq rfl rfl
    | exact Option.some.inj hs ▸ .setClient hl rfl rfl (by simp)
    | cases hs

theorem lighter_openSession (fresh : Uuid)
    (hl : s.clientTasks.lookup c = some t) (hpc : t.pc = .openSession) :
    Lighter s (({ s with sessions := s.sessions.insert fresh.toText ⟨t.hostId, c, true, s.now⟩ }.log
      (.opened c fresh t.hostId)).setClient c
        { t with pc := .introduce, session := some fresh }) := by
  intro hostId
  have hopening : s.opening hostId = (if t.hostId = hostId then 1 else 0)
      + Table.count (fun _ t => decide (t.pc = .openSession ∧ t.hostId = hostId))
          (s.clientTasks.erase c) := by
    rw [State.opening, Table.count_of_lookup _ hl]
    simp [hpc]
  have hsessions := Table.count_insert (fun _ x => decide (x.hostId = hostId)) s.sessions
    fresh.toText ⟨t.hostId, c, true, s.now⟩
  have herase := Table.count_erase_le (fun _ x => decide (x.hostId = hostId)) s.sessions
    fresh.toText
  have hmoved := Table.count_insert
    (fun _ (t : ClientTask) => decide (t.pc = .openSession ∧ t.hostId = hostId)) s.clientTasks c
    { t with pc := .introduce, session := some fresh }
  rw [if_neg (by simp), Nat.zero_add] at hmoved
  show Table.count (fun _ x => decide (x.hostId = hostId)) (s.sessions.insert _ _)
    + Table.count _ (s.clientTasks.insert c _) ≤
      Table.count (fun _ x => decide (x.hostId = hostId)) s.sessions + _
  rw [hsessions, hmoved]
  simp only [decide_eq_true_eq]
  omega

/-- A client task by itself: only a passed limit check adds to a load, one to
that of its host. -/
theorem load_clientStep {sent : Bool}
    {fresh : Uuid} (hl : s.clientTasks.lookup c = some t)
    (hs : clientStep env s c t sent fresh = some s') :
    Lighter s s' ∨ (t.pc = .count ∧ s.sessionCount t.hostId < env.config.maxSessionsPerHost ∧
      ∀ hostId, s'.load hostId ≤ s.load hostId + if t.hostId = hostId then 1 else 0) := by
  rcases hpc : t.pc with - | - | - | - | - | - | host | host | host | host | ⟨host, bytes⟩ |
    ⟨host, bytes⟩ | ⟨host, bytes⟩ | farewell | -
  all_goals simp only [clientStep, hpc] at hs
  case start =>
    obtain ⟨rates, hrates⟩ := allowConnect_snd s env.config.connectsPerMinute t.ip
    rcases hallow : s.allowConnect env.config.connectsPerMinute t.ip with ⟨allowed, s₁⟩
    obtain rfl : s₁ = { s with rates } := by rw [← hrates, hallow]
    cases allowed
    all_goals
      simp only [hallow] at hs
      exact Or.inl (Option.some.inj hs ▸ .setClient hl rfl rfl (by simp))
  case count =>
    split at hs
    · exact Or.inl (Option.some.inj hs ▸ .setClient hl rfl rfl (by simp))
    next hroom =>
      refine Or.inr ⟨rfl, Nat.lt_of_not_le hroom, fun hostId => ?_⟩
      obtain rfl := Option.some.inj hs
      have herase := Table.count_erase_le
        (fun _ t => decide (t.pc = .openSession ∧ t.hostId = hostId)) s.clientTasks c
      show s.sessionCount hostId + Table.count _ (s.clientTasks.insert c _) ≤
        s.sessionCount hostId + s.opening hostId + _
      rw [Table.count_insert]
      simp only [true_and, decide_eq_true_eq]
      rw [State.opening]
      omega
  case openSession => exact Or.inl (Option.some.inj hs ▸ lighter_openSession fresh hl hpc)
  case incoming | send =>
    split at hs
    · exact Or.inl (Option.some.inj hs ▸ .setClient hl rfl rfl (by simp))
    next s₁ hsend =>
      obtain ⟨hsessions, hclients⟩ := sendHost_maps hsend
      exact Or.inl (Option.some.inj hs ▸ .trans (.of_eq hsessions hclients)
        (.setClient (hclients ▸ hl) rfl rfl (by simp)))
  case close =>
    have hgone : Lighter s (s.removeSession ((t.session.map Uuid.toText).getD "")) :=
      .removeSession rfl rfl
    cases farewell
    all_goals exact Or.inl (Option.some.inj hs ▸ hgone.trans (.setClient hl rfl rfl (by simp)))
  all_goals
    repeat' split at hs
  all_goals first
    | exact Or.inl (Option.some.inj hs ▸ .setClient hl rfl rfl (by simp))
    | cases hs

theorem load_step {a : Action} (hs : step env s a = some s') :
    Lighter s s' ∨ ∃ c t sent fresh, a = .clientStep c sent fresh ∧
      s.clientTasks.lookup c = some t ∧ t.pc = .count ∧
      s.sessionCount t.hostId < env.config.maxSessionsPerHost ∧
      ∀ hostId, s'.load hostId ≤ s.load hostId + if t.hostId = hostId then 1 else 0 := by
  cases a with
  | tick duration => exact Or.inl (Option.some.inj hs ▸ .of_eq rfl rfl)
  | hostConnect h =>
    simp only [step, Option.ite_none_left_eq_some, Option.some.injEq] at hs
    exact Or.inl (hs.2 ▸ .of_eq rfl rfl)
  | hostIncoming h m =>
    obtain ⟨t, -, hs⟩ := Option.bind_eq_some_iff.mp hs
    exact Or.inl (lighter_hostIncoming hs)
  | hostStep h sent =>
    obtain ⟨t, -, hs⟩ := Option.bind_eq_some_iff.mp hs
    exact Or.inl (lighter_hostStep hs)
  | clientConnect c hostId ip =>
    simp only [step, Option.ite_none_left_eq_some, Option.some.injEq] at hs
    exact Or.inl (hs.2 ▸ .addClient rfl rfl (by simp))
  | clientIncoming c m =>
    obtain ⟨t, hl, hs⟩ := Option.bind_eq_some_iff.mp hs
    exact Or.inl (lighter_clientIncoming hl hs)
  | clientStep c sent fresh =>
    obtain ⟨t, hl, hs⟩ := Option.bind_eq_some_iff.mp hs
    rcases load_clientStep hl hs with hle | ⟨hpc, hroom, hle⟩
    · exact Or.inl hle
    · exact Or.inr ⟨c, t, sent, fresh, rfl, hl, hpc, hroom, hle⟩
  | hostPing h | hostIdle h | hostWrite h sent =>
    obtain ⟨t, -, hs⟩ := Option.bind_eq_some_iff.mp hs
    repeat' split at hs
    all_goals first
      | exact Or.inl (Option.some.inj hs ▸ .of_eq rfl rfl)
      | cases hs
  | clientAcceptTimeout c | clientWrite c sent | clientClosed c | clientIdle c =>
    obtain ⟨t, hl, hs⟩ := Option.bind_eq_some_iff.mp hs
    repeat' split at hs
    all_goals first
      | exact Or.inl (Option.some.inj hs ▸ .setClient hl rfl rfl (by simp_all))
      | cases hs

/-! ### The cap -/

/-- At a limit check that passes, the tasks that are about to insert a session
of the host leave room as well. -/
def RoomAtCheck (env : Env) (s : State) : Action → Prop
  | .clientStep c _ _ => ∀ t, s.clientTasks.lookup c = some t → t.pc = .count →
      s.sessionCount t.hostId < env.config.maxSessionsPerHost →
      s.sessionCount t.hostId + s.opening t.hostId < env.config.maxSessionsPerHost
  | _ => True

instance (s : State) : ∀ a, Decidable (RoomAtCheck env s a)
  | .clientStep c _ _ =>
    match h : s.clientTasks.lookup c with
    | none => isTrue fun t ht => by rw [h] at ht; cases ht
    | some t =>
      decidable_of_iff (t.pc = .count →
          s.sessionCount t.hostId < env.config.maxSessionsPerHost →
          s.sessionCount t.hostId + s.opening t.hostId < env.config.maxSessionsPerHost)
        ⟨fun hc _ ht => Option.some.inj (h.symm.trans ht) ▸ hc, fun hc => hc t h⟩
  | .tick _ | .hostConnect _ | .hostIncoming _ _ | .hostStep _ _ | .hostPing _ | .hostIdle _
  | .hostWrite _ _ | .clientConnect _ _ _ | .clientIncoming _ _ | .clientAcceptTimeout _
  | .clientWrite _ _ | .clientClosed _ | .clientIdle _ => isTrue trivial

/-- **No host has more sessions than the cap**, in any interleaving of the
tasks in which no two of them pass the check for the same last place. -/
theorem session_cap {s : State} {actions : List Action}
    (hroom : Machine.Along (step env) (RoomAtCheck env) State.init actions)
    (hrun : Machine.run (step env) State.init actions = some s) (hostId : String) :
    s.sessionCount hostId ≤ env.config.maxSessionsPerHost := by
  have hload : ∀ hostId, s.load hostId ≤ env.config.maxSessionsPerHost := by
    refine Machine.run_inv_along (I := fun s => ∀ hostId,
      s.load hostId ≤ env.config.maxSessionsPerHost) ?_ (fun _ => Nat.zero_le _) hroom hrun
    intro s a s' hle hcheck hs hostId
    rcases load_step hs with hlighter | ⟨c, t, sent, fresh, rfl, hl, hpc, hfree, hmore⟩
    · exact (hlighter hostId).trans (hle hostId)
    · have hfree' := hcheck t hl hpc hfree
      have hmore := hmore hostId
      have hle := hle hostId
      by_cases heq : t.hostId = hostId
      · rw [if_pos heq] at hmore
        rw [heq] at hfree'
        exact hmore.trans hfree'
      · rw [if_neg heq] at hmore
        exact hmore.trans hle
  exact (Nat.le_add_right _ _).trans (hload hostId)

/-- `session_cap` where one client connects. -/
theorem session_cap_connects :
    ∃ s, Machine.run (step knownEnv) State.init (registers 0 ++ connects 0) = some s ∧
      s.sessionCount "host-1" ≤ knownEnv.config.maxSessionsPerHost := by
  have hroom : Machine.Along (step knownEnv) (RoomAtCheck knownEnv) State.init
      (registers 0 ++ connects 0) := by
    decide
  have hsome : (Machine.run (step knownEnv) State.init (registers 0 ++ connects 0)).isSome := by
    decide
  obtain ⟨s, hs⟩ := Option.isSome_iff_exists.mp hsome
  exact ⟨s, hs, session_cap hroom hs "host-1"⟩

/-- Client `c` comes as far as the limit check. -/
def arrives (c : ClientId) : List Action :=
  [.clientConnect c "host-1" 1, .clientStep c true knownId, .clientStep c true knownId,
    .clientIncoming c (.text connectText)]

def raceId (c : ClientId) : Uuid :=
  ⟨[UInt8.ofNat c, 2, 3, 4, 5, 6, 0x47, 8, 0x89, 10, 11, 12, 13, 14, 15, 16], rfl⟩

/-- Five clients count, and then each inserts its session. -/
def race : List Action :=
  registers 0 ++ (List.range 5).flatMap arrives
    ++ (List.range 5).map (fun c => Action.clientStep c true (raceId c))
    ++ (List.range 5).map (fun c => Action.clientStep c true (raceId c))

/-- Five clients that count before any of them inserts are all let in, where
the cap is four. -/
theorem session_cap_raced :
    knownEnv.config.maxSessionsPerHost = 4 ∧
      (Machine.run (step knownEnv) State.init race).map (·.sessionCount "host-1") = some 5 := by
  refine ⟨rfl, ?_⟩
  decide

end MahoRD.Relay

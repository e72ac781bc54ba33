/-
MahoRD/Relay/Lifetime.lean

The lifetime of a session.  `forward_from_host` compares the age of the session
with the limit before it takes the client's sender; `forward_from_client` looks
the session up and does not ask for its age.

When a client's session was opened is kept beside the state (`born`), since the
entry of the map goes while frames of the session are still on their way.  A
frame is on its way between the check that admits it and the send.
-/
import MahoRD.Relay.Isolation

namespace MahoRD.Relay

/-- The relay with the instants at which the clients' sessions were opened. -/
structure Dated where
  state : State
  born : Table ClientId ℕ

namespace Dated

def init : Dated := ⟨State.init, ∅⟩

def bornAfter (x : Dated) : Action → Table ClientId ℕ
  | .clientStep c _ _ =>
    if (x.state.clientTasks.lookup c).any (·.pc = .openSession) then
      x.born.insert c x.state.now
    else x.born
  | _ => x.born

def step (env : Env) (x : Dated) (a : Action) : Option Dated :=
  (Relay.step env x.state a).map fun s => ⟨s, x.bornAfter a⟩

end Dated

/-- A frame of the client has been admitted and not sent on. -/
def ClientPc.InFlight : ClientPc → Prop
  | checkHost _ _ | send _ _ => True
  | _ => False

/-- The action puts a frame of the client's session on the queue of the other
side. -/
def Forwards (s : State) : Action → ClientId → Prop
  | .hostStep h _, c => ∃ t b, s.hostTasks.lookup h = some t ∧ t.pc = .forward c b
  | .clientStep c' _ _, c => c' = c ∧ ∃ t host b, s.clientTasks.lookup c = some t ∧
      t.pc = .send host b ∧ (s.sendHost host (.binary b)).isSome
  | _, _ => False

variable (env : Env)

/-- The session of the client is not older than the limit. -/
def Within (born : Table ClientId ℕ) (now : ℕ) (c : ClientId) : Prop :=
  ∃ created, born.lookup c = some created ∧ now - created ≤ env.config.maxSessionDuration

/-- What the code leaves to others: a frame of a client finds its session in
the map only while the session is not older than the limit, and the clock does
not pass the limit of a session while a frame of it is on its way. -/
def InTime (x : Dated) : Action → Prop
  | .clientStep c _ _ => ∀ t host b, x.state.clientTasks.lookup c = some t →
      t.pc = .checkSession host b → (t.session.bind (x.state.sessions.lookup ·.toText)).isSome →
      ∀ created, x.born.lookup c = some created →
        x.state.now - created ≤ env.config.maxSessionDuration
  | .tick duration => ∀ c created, x.born.lookup c = some created →
      ((∃ t, x.state.clientTasks.lookup c = some t ∧ t.pc.InFlight) ∨
        ∃ h t b, x.state.hostTasks.lookup h = some t ∧ t.pc = .forward c b) →
      x.state.now + duration - created ≤ env.config.maxSessionDuration
  | _ => True

/-! ### The invariant -/

structure ClientTimely (born : Table ClientId ℕ) (now : ℕ) (c : ClientId) (t : ClientTask) :
    Prop where
  early : t.pc.Early → born.lookup c = none
  session : t.session.isSome → (born.lookup c).isSome
  inFlight : t.pc.InFlight → Within env born now c

/-- The frames on their way belong to sessions that are not too old, and the
map agrees with the dates. -/
structure Timely (born : Table ClientId ℕ) (s : State) : Prop where
  sessions : ∀ key x, s.sessions.lookup key = some x → born.lookup x.clientTx = some x.created
  hosts : ∀ h t c b, s.hostTasks.lookup h = some t → t.pc = .forward c b →
    Within env born s.now c
  clients : ∀ c t, s.clientTasks.lookup c = some t → ClientTimely env born s.now c t
  born : ∀ c created, born.lookup c = some created → c ∈ s.clientTasks

variable {env}

theorem timely_init : Timely env ∅ State.init where
  sessions := by simp [State.init]
  hosts := by simp [State.init]
  clients := by simp [State.init]
  born := by simp

/-! ### The primitive changes -/

section Changes

variable {born : Table ClientId ℕ} {s s' : State}

theorem Timely.of_eq (h : Timely env born s) (hs : s'.sessions = s.sessions)
    (hh : s'.hostTasks = s.hostTasks) (hc : s'.clientTasks = s.clientTasks)
    (hn : s'.now = s.now) : Timely env born s' where
  sessions := hs ▸ h.sessions
  hosts := hh ▸ hn ▸ h.hosts
  clients := hc ▸ hn ▸ h.clients
  born := hc ▸ h.born

/-- A host task moves; if to a frame's forwarding, then of a session in time. -/
theorem Timely.setHost (h : Timely env born s) {i : HostId} {t : HostTask}
    (hh : s'.hostTasks = s.hostTasks.insert i t) (hs : s'.sessions = s.sessions)
    (hc : s'.clientTasks = s.clientTasks) (hn : s'.now = s.now)
    (hpc : ∀ c b, t.pc = .forward c b → Within env born s.now c) : Timely env born s' where
  sessions := hs ▸ h.sessions
  hosts j u c b hj hu := by
    rw [hh, Table.lookup_insert] at hj
    rw [hn]
    split at hj
    · obtain rfl := Option.some.inj hj
      exact hpc c b hu
    · exact h.hosts j u c b hj hu
  clients := hc ▸ hn ▸ h.clients
  born := hc ▸ h.born

theorem Timely.setClient (h : Timely env born s) {c : ClientId} {t : ClientTask}
    (hc : s'.clientTasks = s.clientTasks.insert c t) (hs : s'.sessions = s.sessions)
    (hh : s'.hostTasks = s.hostTasks) (hn : s'.now = s.now)
    (ht : ClientTimely env born s.now c t) : Timely env born s' where
  sessions := hs ▸ h.sessions
  hosts := hh ▸ hn ▸ h.hosts
  clients c' t' hl := by
    rw [hc, Table.lookup_insert] at hl
    rw [hn]
    split at hl
    next heq =>
      obtain rfl := Option.some.inj hl
      exact heq ▸ ht
    · exact h.clients c' t' hl
  born c' created hb := by
    rw [hc]
    exact (AList.mem_insert _).mpr (Or.inr (h.born c' created hb))

theorem Timely.removeSession (h : Timely env born s) (key : String) :
    Timely env born (s.removeSession key) where
  sessions key' x hl := h.sessions key' x (Table.lookup_erase_eq_some.mp hl).2
  hosts := h.hosts
  clients := h.clients
  born := h.born

theorem Timely.setSession (h : Timely env born s) {key : String} {x : Session}
    (hl : s.sessions.lookup key = some x) (accept : Bool) :
    Timely env born { s with sessions := s.sessions.insert key { x with accept } } where
  sessions key' y hy := by
    have hy' : (s.sessions.insert key { x with accept }).lookup key' = some y := hy
    rw [Table.lookup_insert] at hy'
    split at hy'
    · obtain rfl := Option.some.inj hy'
      exact h.sessions key x hl
    · exact h.sessions key' y hy'
  hosts := h.hosts
  clients := h.clients
  born := h.born

theorem Timely.sendClient (h : Timely env born s) (c : ClientId) (m : Message) :
    Timely env born (s.sendClient c m) := by
  unfold State.sendClient
  split
  next t hl =>
    have ht := h.clients c t hl
    split
    · exact h
    · exact h.setClient rfl rfl rfl rfl ⟨ht.early, ht.session, ht.inFlight⟩
  · exact h

theorem Timely.sendHost (h : Timely env born s) {i : HostId} {m : Message}
    (hs : s.sendHost i m = some s') :
    Timely env born s' ∧ s'.clientTasks = s.clientTasks ∧ s'.now = s.now := by
  unfold State.sendHost at hs
  split at hs
  next t hl =>
    split at hs
    · obtain rfl := Option.some.inj hs
      exact ⟨h.setHost rfl rfl rfl rfl fun c b hpc => h.hosts i t c b hl hpc, rfl, rfl⟩
    · cases hs
  · cases hs

theorem ClientTimely.go {now : ℕ} {c : ClientId} {t t' : ClientTask}
    (h : ClientTimely env born now c t) (hs : t'.session = t.session)
    (hearly : t'.pc.Early → t.pc.Early) (hpc : ¬ t'.pc.InFlight) :
    ClientTimely env born now c t' :=
  ⟨fun he => h.early (hearly he), fun hsome => h.session (hs ▸ hsome), fun hf => absurd hf hpc⟩

end Changes

/-! ### Host tasks -/

section Steps

variable {born : Table ClientId ℕ} {s s' : State}

variable {h : HostId} {t : HostTask} {c : ClientId}

theorem timely_handleHostText (hinv : Timely env born s)
    (hpc : ∀ c b, t.pc ≠ .forward c b) (text : String) :
    Timely env born (handleHostText env s h t text) := by
  have hstay : Timely env born (s.setHost h t) :=
    hinv.setHost rfl rfl rfl rfl fun c b hf => absurd hf (hpc c b)
  unfold handleHostText
  split
  case h_4 sessionId _ =>
    split
    · exact hstay
    next x hl =>
      split
      · exact hstay
      · exact (hinv.setSession hl false).setHost rfl rfl rfl rfl (by simp)
  case h_5 => exact hinv.setHost rfl rfl rfl rfl fun c b hf => absurd hf (by simpa using hpc c b)
  all_goals exact hstay

/-- **The host's side checks the age** before it takes the client's sender. -/
theorem timely_forwardFromHost (hinv : Timely env born s)
    (hpc : ∀ c b, t.pc ≠ .forward c b) (bytes : List UInt8) :
    Timely env born (forwardFromHost env s h t bytes) := by
  have hstay : Timely env born (s.setHost h t) :=
    hinv.setHost rfl rfl rfl rfl fun c b hf => absurd hf (hpc c b)
  unfold forwardFromHost
  split
  · exact hinv.setHost rfl rfl rfl rfl (by simp)
  · split
    · exact hinv.setHost rfl rfl rfl rfl (by simp)
    · split
      · exact hstay
      · dsimp only
        split
        · exact hstay
        next x hl =>
          split
          · exact hstay
          · split
            · exact hinv.setHost rfl rfl rfl rfl (by simp)
            next hage =>
              refine hinv.setHost rfl rfl rfl rfl fun c b hf => ?_
              obtain ⟨rfl, -⟩ := HostPc.forward.inj hf
              exact ⟨x.created, hinv.sessions _ x hl, Nat.le_of_not_lt hage⟩

theorem timely_hostIncoming (hinv : Timely env born s) {m : Incoming}
    (hs : hostIncoming env s h t m = some s') : Timely env born s' := by
  rcases hpc : t.pc with - | - | exit | exit | ⟨exit, doomed⟩ | - | - | client |
    ⟨client, bytes⟩ | key | -
  case register =>
    simp only [hostIncoming, hpc] at hs
    repeat' split at hs
    all_goals exact Option.some.inj hs ▸ hinv.setHost rfl rfl rfl rfl (by simp)
  case loop =>
    simp only [hostIncoming, hpc] at hs
    have hlog : ∀ e, Timely env born (s.log e) := fun e => hinv.of_eq rfl rfl rfl rfl
    cases m with
    | text text => exact Option.some.inj hs ▸ timely_handleHostText hinv (by simp) text
    | binary bytes =>
      exact Option.some.inj hs ▸ timely_forwardFromHost (hlog _) (by simp) bytes
    | ping payload | pong | closed =>
      exact Option.some.inj hs ▸ hinv.setHost rfl rfl rfl rfl (by simp)
  all_goals simp [hostIncoming, hpc] at hs

theorem timely_hostStep (hinv : Timely env born s) {sent : Bool}
    (hs : hostStep env s h t sent = some s') : Timely env born s' := by
  rcases hpc : t.pc with - | - | exit | exit | ⟨exit, - | ⟨id, doomed⟩⟩ | - | - | client |
    ⟨client, bytes⟩ | key | -
  all_goals simp only [hostStep, hpc] at hs
  case dropSessions.cons =>
    exact Option.some.inj hs ▸ (hinv.removeSession id).setHost rfl rfl rfl rfl (by simp)
  case dropSessions.nil =>
    exact Option.some.inj hs ▸ hinv.setHost rfl rfl rfl rfl (by cases exit <;> simp)
  case expire =>
    exact Option.some.inj hs ▸ (hinv.removeSession key).setHost rfl rfl rfl rfl (by simp)
  case accept =>
    have hloop : Timely env born (s.setHost h { t with pc := .loop }) :=
      hinv.setHost rfl rfl rfl rfl (by simp)
    split at hs
    next c hc =>
      have hok := hinv.clients client c hc
      exact Option.some.inj hs ▸ hloop.setClient rfl rfl rfl rfl
        ⟨hok.early, hok.session, hok.inFlight⟩
    · exact Option.some.inj hs ▸ hloop
  case forward =>
    have hloop : Timely env born (s.setHost h { t with pc := .loop }) :=
      hinv.setHost rfl rfl rfl rfl (by simp)
    exact Option.some.inj hs ▸ hloop.sendClient client _
  all_goals
    repeat' split at hs
  all_goals first
    | exact Option.some.inj hs ▸ hinv.setHost rfl rfl rfl rfl (by simp)
    | cases hs

/-! ### Client tasks -/

theorem timely_clientIncoming (hinv : Timely env born s) {t : ClientTask}
    {m : Incoming} (hl : s.clientTasks.lookup c = some t)
    (hs : clientIncoming env s c t m = some s') : Timely env born s' := by
  have hok := hinv.clients c t hl
  simp only [clientIncoming] at hs
  repeat' split at hs
  all_goals first
    | exact Option.some.inj hs ▸ hinv.of_eq rfl rfl rfl rfl
    | exact Option.some.inj hs ▸ hinv.setClient rfl rfl rfl rfl
        (hok.go rfl (by simp_all [ClientPc.Early]) (by simp [ClientPc.InFlight]))
    | cases hs

theorem timely_openSession (hinv : Timely env born s) {t : ClientTask}
    (hl : s.clientTasks.lookup c = some t) (hpc : t.pc = .openSession) (fresh : Uuid) :
    Timely env (born.insert c s.now)
      (({ s with sessions := s.sessions.insert fresh.toText ⟨t.hostId, c, true, s.now⟩ }.log
        (.opened c fresh t.hostId)).setClient c
          { t with pc := .introduce, session := some fresh }) := by
  have hnone : born.lookup c = none := (hinv.clients c t hl).early (by simp [hpc, ClientPc.Early])
  -- what was dated before keeps its date
  have hkeep : ∀ c' created, born.lookup c' = some created →
      (born.insert c s.now).lookup c' = some created := by
    intro c' created hb
    have hne : c' ≠ c := by
      rintro rfl
      rw [hnone] at hb
      cases hb
    rw [Table.lookup_insert, if_neg hne, hb]
  have hwithin : ∀ c', Within env born s.now c' → Within env (born.insert c s.now) s.now c' := by
    rintro c' ⟨created, hb, hage⟩
    exact ⟨created, hkeep c' created hb, hage⟩
  refine ⟨fun key x hx => ?_, fun h u c' b hu hf => hwithin c' (hinv.hosts h u c' b hu hf),
    fun c' t' hc' => ?_, fun c' created hb => ?_⟩
  · have hx' : (s.sessions.insert fresh.toText ⟨t.hostId, c, true, s.now⟩).lookup key
        = some x := hx
    rw [Table.lookup_insert] at hx'
    split at hx'
    · obtain rfl := Option.some.inj hx'
      exact AList.lookup_insert _
    · exact hkeep _ _ (hinv.sessions key x hx')
  · have hc'' : (s.clientTasks.insert c
        { t with pc := .introduce, session := some fresh }).lookup c' = some t' := hc'
    rw [Table.lookup_insert] at hc''
    split at hc''
    next heq =>
      obtain rfl := Option.some.inj hc''
      refine ⟨by simp [ClientPc.Early], fun _ => ?_, by simp [ClientPc.InFlight]⟩
      rw [heq, AList.lookup_insert]
      rfl
    next hne =>
      have hok := hinv.clients c' t' hc''
      refine ⟨fun he => ?_, fun hsome => ?_, fun hf => hwithin c' (hok.inFlight hf)⟩
      · rw [Table.lookup_insert, if_neg hne, hok.early he]
      · rw [Table.lookup_insert, if_neg hne]
        exact hok.session hsome
  · rw [Table.lookup_insert] at hb
    show c' ∈ s.clientTasks.insert c _
    split at hb
    next heq => exact (AList.mem_insert _).mpr (Or.inl heq)
    · exact (AList.mem_insert _).mpr (Or.inr (hinv.born c' created hb))

theorem timely_clientStep (hinv : Timely env born s) {t : ClientTask}
    {sent : Bool} {fresh : Uuid} (hl : s.clientTasks.lookup c = some t)
    (hage : ∀ host b, t.pc = .checkSession host b →
      (t.session.bind (s.sessions.lookup ·.toText)).isSome →
      ∀ created, born.lookup c = some created →
        s.now - created ≤ env.config.maxSessionDuration)
    (hs : clientStep env s c t sent fresh = some s') :
    Timely env (if t.pc = .openSession then born.insert c s.now else born) s' := by
  have hok := hinv.clients c t hl
  rcases hpc : t.pc with - | - | - | - | - | - | host | host | host | host | ⟨host, bytes⟩ |
    ⟨host, bytes⟩ | ⟨host, bytes⟩ | farewell | -
  all_goals simp only [clientStep, hpc] at hs
  case openSession =>
    exact Option.some.inj hs ▸ timely_openSession hinv hl hpc fresh
  all_goals rw [if_neg (by simp)]
  case start =>
    obtain ⟨rates, hrates⟩ := allowConnect_snd s env.config.connectsPerMinute t.ip
    rcases hallow : s.allowConnect env.config.connectsPerMinute t.ip with ⟨allowed, s₁⟩
    obtain rfl : s₁ = { s with rates } := by rw [← hrates, hallow]
    cases allowed
    all_goals
      simp only [hallow] at hs
      exact Option.some.inj hs ▸ hinv.setClient rfl rfl rfl rfl
        (hok.go rfl (by simp [hpc, ClientPc.Early]) (by simp [ClientPc.InFlight]))
  case incoming | send =>
    split at hs
    · exact Option.some.inj hs ▸ hinv.setClient rfl rfl rfl rfl
        (hok.go rfl (by simp [ClientPc.Early]) (by simp [ClientPc.InFlight]))
    next s₁ hsend =>
      obtain ⟨hinv₁, hclients, hnow⟩ := hinv.sendHost hsend
      refine Option.some.inj hs ▸ hinv₁.setClient rfl rfl rfl rfl (hnow ▸ ?_)
      exact hok.go rfl (by simp [ClientPc.Early]) (by simp [ClientPc.InFlight])
  case checkSession =>
    split at hs
    next hfound =>
      -- the session is in the map, and this is where its age is not asked for
      have hsession : t.session.isSome := by
        cases hts : t.session with
        | none => simp [hts] at hfound
        | some u => rfl
      obtain ⟨created, hb⟩ := Option.isSome_iff_exists.mp (hok.session hsession)
      exact Option.some.inj hs ▸ hinv.setClient rfl rfl rfl rfl
        ⟨by simp [ClientPc.Early], hok.session,
          fun _ => ⟨created, hb, hage host bytes hpc hfound created hb⟩⟩
    · exact Option.some.inj hs ▸ hinv.setClient rfl rfl rfl rfl
        (hok.go rfl (by simp [ClientPc.Early]) (by simp [ClientPc.InFlight]))
  case checkHost =>
    have hwithin := hok.inFlight (by simp [hpc, ClientPc.InFlight])
    split at hs
    · exact Option.some.inj hs ▸ hinv.setClient rfl rfl rfl rfl
        ⟨by simp [ClientPc.Early], hok.session, fun _ => hwithin⟩
    · exact Option.some.inj hs ▸ hinv.setClient rfl rfl rfl rfl
        (hok.go rfl (by simp [ClientPc.Early]) (by simp [ClientPc.InFlight]))
  case close =>
    have hgone := hinv.removeSession ((t.session.map Uuid.toText).getD "")
    cases farewell
    all_goals
      exact Option.some.inj hs ▸ hgone.setClient rfl rfl rfl rfl
        (hok.go rfl (by simp [ClientPc.Early]) (by simp [ClientPc.InFlight]))
  all_goals
    repeat' split at hs
  all_goals first
    | exact Option.some.inj hs ▸ hinv.setClient rfl rfl rfl rfl
        (hok.go rfl (by simp [hpc, ClientPc.Early]) (by simp [ClientPc.InFlight]))
    | cases hs

end Steps

/-! ### Runs -/

theorem timely_step {x x' : Dated} {a : Action} (hinv : Timely env x.born x.state)
    (htime : InTime env x a) (hstep : x.step env a = some x') :
    Timely env x'.born x'.state := by
  obtain ⟨s', hs, rfl⟩ := Option.map_eq_some_iff.mp hstep
  cases a with
  | tick duration =>
    obtain rfl := Option.some.inj hs
    refine ⟨hinv.sessions, fun h t c b hl hpc => ?_, fun c t hl => ?_, hinv.born⟩
    · obtain ⟨created, hb, -⟩ := hinv.hosts h t c b hl hpc
      exact ⟨created, hb, htime c created hb (Or.inr ⟨_, t, b, hl, hpc⟩)⟩
    · have hok := hinv.clients c t hl
      refine ⟨hok.early, hok.session, fun hf => ?_⟩
      obtain ⟨created, hb, -⟩ := hok.inFlight hf
      exact ⟨created, hb, htime c created hb (Or.inl ⟨t, hl, hf⟩)⟩
  | hostConnect h =>
    simp only [Relay.step, Option.ite_none_left_eq_some, Option.some.injEq] at hs
    exact hs.2 ▸ hinv.setHost rfl rfl rfl rfl (by simp)
  | hostIncoming h m =>
    obtain ⟨t, -, hs⟩ := Option.bind_eq_some_iff.mp hs
    exact timely_hostIncoming hinv hs
  | hostStep h sent =>
    obtain ⟨t, -, hs⟩ := Option.bind_eq_some_iff.mp hs
    exact timely_hostStep hinv hs
  | clientConnect c hostId ip =>
    simp only [Relay.step, Option.ite_none_left_eq_some, Option.some.injEq] at hs
    obtain ⟨hnew, rfl⟩ := hs
    refine hinv.setClient rfl rfl rfl rfl ⟨fun _ => ?_, by simp, by simp [ClientPc.InFlight]⟩
    cases hb : x.born.lookup c with
    | none => rfl
    | some created => exact absurd (hinv.born c created hb) hnew
  | clientIncoming c m =>
    obtain ⟨t, hl, hs⟩ := Option.bind_eq_some_iff.mp hs
    exact timely_clientIncoming hinv hl hs
  | clientStep c sent fresh =>
    obtain ⟨t, hl, hs⟩ := Option.bind_eq_some_iff.mp hs
    have hborn : x.bornAfter (.clientStep c sent fresh)
        = if t.pc = .openSession then x.born.insert c x.state.now else x.born := by
      simp [Dated.bornAfter, hl]
    show Timely env (x.bornAfter (.clientStep c sent fresh)) s'
    rw [hborn]
    exact timely_clientStep hinv hl (fun host b hpc => htime t host b hl hpc) hs
  | hostPing h | hostIdle h | hostWrite h sent =>
    obtain ⟨t, hl, hs⟩ := Option.bind_eq_some_iff.mp hs
    repeat' split at hs
    all_goals first
      | exact Option.some.inj hs ▸ hinv.setHost rfl rfl rfl rfl
          fun c b hpc => hinv.hosts h t c b hl hpc
      | exact Option.some.inj hs ▸ hinv.setHost rfl rfl rfl rfl (by simp_all)
      | cases hs
  | clientAcceptTimeout c | clientWrite c sent | clientClosed c | clientIdle c =>
    obtain ⟨t, hl, hs⟩ := Option.bind_eq_some_iff.mp hs
    have hok := hinv.clients c t hl
    repeat' split at hs
    all_goals first
      | exact Option.some.inj hs ▸ hinv.setClient rfl rfl rfl rfl
          (hok.go rfl (by simp_all [ClientPc.Early]) (by simp_all [ClientPc.InFlight]))
      | cases hs

/-- **No frame is forwarded on a session past its lifetime**, in either
direction, in any run in which a client's frames find its session in the map
only within its lifetime and the clock does not overtake a frame on its way. -/
theorem forwarded_within_lifetime {x : Dated} {actions : List Action}
    (htime : Machine.Along (Dated.step env) (InTime env) Dated.init actions)
    (hrun : Machine.run (Dated.step env) Dated.init actions = some x)
    {a : Action} {c : ClientId} (hf : Forwards x.state a c) :
    ∃ created, x.born.lookup c = some created ∧
      x.state.now - created ≤ env.config.maxSessionDuration := by
  have hinv : Timely env x.born x.state :=
    Machine.run_inv_along (I := fun x => Timely env x.born x.state)
      (fun hi hC hs => timely_step hi hC hs) timely_init htime hrun
  cases a with
  | hostStep h sent =>
    obtain ⟨t, b, hl, hpc⟩ := hf
    exact hinv.hosts h t c b hl hpc
  | clientStep c' sent fresh =>
    obtain ⟨rfl, t, host, b, hl, hpc, -⟩ := hf
    exact (hinv.clients c' t hl).inFlight (by simp [hpc, ClientPc.InFlight])
  | _ => exact hf.elim

/-- The client of the known run sends a frame, and its task comes as far as the
send. -/
def clientSends : List Action :=
  [.clientIncoming 0 (.binary (Uuid.nil.bytes ++ [relayChannelTcp, 7])),
    .clientStep 0 true knownId, .clientStep 0 true knownId]

instance (s : State) (c : ClientId) (sent : Bool) (fresh : Uuid) :
    Decidable (Forwards s (.clientStep c sent fresh) c) :=
  match hl : s.clientTasks.lookup c with
  | none => isFalse fun ⟨_, t, _, _, ht, _⟩ => by rw [hl] at ht; cases ht
  | some t =>
    match hpc : t.pc with
    | .send host b =>
      decidable_of_iff ((s.sendHost host (.binary b)).isSome)
        ⟨fun hs => ⟨rfl, t, host, b, hl, hpc, hs⟩, fun ⟨_, t', host', b', ht, hpc', hs⟩ => by
          obtain rfl := Option.some.inj (hl.symm.trans ht)
          obtain ⟨rfl, rfl⟩ := ClientPc.send.inj (hpc.symm.trans hpc')
          exact hs⟩
    | .start | .lookup | .connect | .count | .openSession | .introduce | .incoming _ | .await _
    | .connected _ | .loop _ | .checkSession _ _ | .checkHost _ _ | .close _ | .done =>
      isFalse fun ⟨_, t', _, _, ht, hpc', _⟩ => by
        obtain rfl := Option.some.inj (hl.symm.trans ht)
        rw [hpc] at hpc'
        cases hpc'

/-- At its start no time has passed for any session. -/
def Fresh (x : Dated) (a : Action) : Prop :=
  x.state.now = 0 ∧ (match a with | .tick _ => False | _ => True)

instance (x : Dated) (a : Action) : Decidable (Fresh x a) := by
  unfold Fresh
  cases a <;> infer_instance

theorem Fresh.inTime {x : Dated} {a : Action} (h : Fresh x a) : InTime env x a := by
  obtain ⟨hnow, htick⟩ := h
  cases a with
  | tick duration => exact htick.elim
  | clientStep c sent fresh =>
    intro t host b _ _ _ created _
    rw [hnow, Nat.zero_sub]
    exact Nat.zero_le _
  | _ => trivial

/-- `forwarded_within_lifetime` for a frame sent right after the session has
been opened. -/
theorem forwarded_within_lifetime_clientSends :
    ∃ x, Machine.run (Dated.step knownEnv) Dated.init
        (registers 0 ++ connects 0 ++ clientSends) = some x ∧
      Forwards x.state (.clientStep 0 true knownId) 0 ∧
      ∃ created, x.born.lookup 0 = some created ∧
        x.state.now - created ≤ knownEnv.config.maxSessionDuration := by
  have hfresh : Machine.Along (Dated.step knownEnv) Fresh Dated.init
      (registers 0 ++ connects 0 ++ clientSends) := by
    decide
  have hrun : (Machine.run (Dated.step knownEnv) Dated.init
      (registers 0 ++ connects 0 ++ clientSends)).any
        (fun x => decide (Forwards x.state (.clientStep 0 true knownId) 0)) = true := by
    decide
  obtain ⟨x, hx, hf⟩ := (Option.any_eq_true _ _).mp hrun
  have hforwards := of_decide_eq_true hf
  exact ⟨x, hx, hforwards, forwarded_within_lifetime (hfresh.imp Fresh.inTime) hx hforwards⟩

/-- The relay with sessions of a second. -/
def briefEnv : Env :=
  { knownEnv with config := { knownEnv.config with maxSessionDuration := 10 ^ 9 } }

/-- Two seconds after its session was opened, a client's frame goes to the
host. -/
theorem forwarded_past_lifetime :
    ∃ x, Machine.run (Dated.step briefEnv) Dated.init
        (registers 0 ++ connects 0 ++ [.tick (2 * 10 ^ 9)] ++ clientSends) = some x ∧
      Forwards x.state (.clientStep 0 true knownId) 0 ∧
      ∃ created, x.born.lookup 0 = some created ∧
        briefEnv.config.maxSessionDuration < x.state.now - created := by
  have hrun : (Machine.run (Dated.step briefEnv) Dated.init
      (registers 0 ++ connects 0 ++ [Action.tick (2 * 10 ^ 9)] ++ clientSends)).any
        (fun x => decide (Forwards x.state (.clientStep 0 true knownId) 0 ∧
          x.born.lookup 0 = some 0 ∧ x.state.now = 2 * 10 ^ 9)) = true := by
    decide
  obtain ⟨x, hx, hf⟩ := (Option.any_eq_true _ _).mp hrun
  obtain ⟨hforwards, hborn, hnow⟩ := of_decide_eq_true hf
  refine ⟨x, hx, hforwards, 0, hborn, ?_⟩
  rw [hnow]
  show 10 ^ 9 < 2 * 10 ^ 9 - 0
  decide

end MahoRD.Relay

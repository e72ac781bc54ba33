/-
MahoRD/Relay/Isolation.lean

No frame of one session reaches another session's client or another host.

What a frame in a queue, in flight or delivered owes to the past is said by the
trace: `ToHost` for frames on their way to a host connection, `FromHost` for
frames on their way to a client.  Both only ask for events that have happened,
so the invariant is a predicate on each task, map entry and event by itself,
kept as the trace grows; a step is checked by the few primitive changes it is
made of.
-/
import MahoRD.Relay.Step

namespace MahoRD.Relay

/-! ### Provenance -/

def Registered (tr : List Event) (h : HostId) (hostId : String) : Prop :=
  Event.registered h hostId ∈ tr

def Opened (tr : List Event) (c : ClientId) (session : Uuid) (hostId : String) : Prop :=
  Event.opened c session hostId ∈ tr

/-- `b` is `b₀` with the session's own id, which `b₀` carried or left nil;
channel and payload are the same. -/
def Stamped (session : Uuid) (b₀ b : List UInt8) : Prop :=
  ∃ frame, decodeRelayFrame b₀ = .ok frame ∧
    (frame.sessionId = session.bytes ∨ frame.sessionId = Uuid.nil.bytes) ∧
    decodeRelayFrame b = .ok { frame with sessionId := session.bytes }

/-- The client of a session of a host id under which `h` registered sent the
frame. -/
def ToHost (tr : List Event) (h : HostId) (b : List UInt8) : Prop :=
  ∃ c session hostId b₀, .clientSends c b₀ ∈ tr ∧ Opened tr c session hostId ∧
    Registered tr h hostId ∧ Stamped session b₀ b

/-- A host connection registered under the host id of the client's session
sent the frame, with the session's id. -/
def FromHost (tr : List Event) (c : ClientId) (b : List UInt8) : Prop :=
  ∃ h session hostId frame, .hostSends h b ∈ tr ∧ Registered tr h hostId ∧
    Opened tr c session hostId ∧ decodeRelayFrame b = .ok frame ∧
    frame.sessionId = session.bytes

section Mono

variable {tr tr' : List Event}

theorem ToHost.mono (hsub : tr ⊆ tr') {h : HostId} {b : List UInt8} (ht : ToHost tr h b) :
    ToHost tr' h b := by
  obtain ⟨c, session, hostId, b₀, hsent, hopen, hreg, hst⟩ := ht
  exact ⟨c, session, hostId, b₀, hsub hsent, hsub hopen, hsub hreg, hst⟩

theorem FromHost.mono (hsub : tr ⊆ tr') {c : ClientId} {b : List UInt8} (hf : FromHost tr c b) :
    FromHost tr' c b := by
  obtain ⟨h, session, hostId, frame, hsent, hreg, hopen, hdec⟩ := hf
  exact ⟨h, session, hostId, frame, hsub hsent, hsub hreg, hsub hopen, hdec⟩

end Mono

variable {b : List UInt8} {h : HostId} {tr tr' : List Event} {c : ClientId} {t : ClientTask}
  {s s' : State} {m : Message}

theorem stampFrame_spec {session : Uuid} {maxPayload : ℕ} {b₀ : List UInt8}
    (h : stampFrame session maxPayload b₀ = some b) : Stamped session b₀ b := by
  unfold stampFrame at h
  split at h
  · cases h
  next frame hdec =>
    split at h
    · cases h
    · split at h
      next hnil =>
        cases h
        exact ⟨frame, hdec, Or.inr hnil, decodeRelayFrame_stamp session hdec⟩
      · split at h
        · cases h
        next hown =>
          cases h
          rw [not_not] at hown
          exact ⟨frame, hdec, Or.inl hown, by rw [hdec, ← hown]⟩

theorem stampFrame_foreign {session : Uuid} {maxPayload : ℕ} {frame : RelayFrame}
    (hdec : decodeRelayFrame b = .ok frame) (hnil : frame.sessionId ≠ Uuid.nil.bytes)
    (hforeign : frame.sessionId ≠ session.bytes) : stampFrame session maxPayload b = none := by
  simp [stampFrame, hdec, hnil, hforeign]

/-! ### The invariant -/

/-- The task has been inserted into `hosts`, and its loop has not ended. -/
def HostPc.Live : HostPc → Prop
  | loop | accept _ | forward _ _ | expire _ => True
  | _ => False

/-- The host connection a client task was introduced to. -/
def ClientPc.host? : ClientPc → Option HostId
  | incoming h | await h | connected h | loop h | checkSession h _ | checkHost h _ | send h _ =>
    some h
  | _ => none

/-- The frame a client task is forwarding. -/
def ClientPc.frame? : ClientPc → Option (List UInt8)
  | checkSession _ b | checkHost _ b | send _ b => some b
  | _ => none

/-- The task has not opened its session yet. -/
def ClientPc.Early : ClientPc → Prop
  | start | lookup | connect | count | openSession => True
  | _ => False

structure HostOk (tr : List Event) (h : HostId) (t : HostTask) : Prop where
  queue : ∀ b, .binary b ∈ t.queue → ToHost tr h b
  live : t.pc.Live → Registered tr h t.hostId
  forward : ∀ c b, t.pc = .forward c b → FromHost tr c b

structure ClientOk (tr : List Event) (c : ClientId) (t : ClientTask) : Prop where
  queue : ∀ b, .binary b ∈ t.queue → FromHost tr c b
  session : ∀ u, t.session = some u → Opened tr c u t.hostId
  early : t.pc.Early → t.session = none
  host : ∀ h, t.pc.host? = some h → Registered tr h t.hostId
  frame : ∀ b, t.pc.frame? = some b →
    ∃ b₀ u, .clientSends c b₀ ∈ tr ∧ t.session = some u ∧ Stamped u b₀ b
  farewell : ∀ b, t.pc ≠ .close (some (.binary b))

def SessionOk (tr : List Event) (key : String) (session : Session) : Prop :=
  ∃ u : Uuid, key = u.toText ∧ Opened tr session.clientTx u session.hostId

def EventOk (tr : List Event) : Event → Prop
  | .hostReceives h (.binary b) => ToHost tr h b
  | .clientReceives c (.binary b) => FromHost tr c b
  | _ => True

structure Inv (s : State) : Prop where
  hosts : ∀ hostId h, s.hosts.lookup hostId = some h → Registered s.trace h hostId
  sessions : ∀ key session, s.sessions.lookup key = some session → SessionOk s.trace key session
  hostTasks : ∀ h t, s.hostTasks.lookup h = some t → HostOk s.trace h t
  clientTasks : ∀ c t, s.clientTasks.lookup c = some t → ClientOk s.trace c t
  trace : ∀ e ∈ s.trace, EventOk s.trace e
  once : ∀ c u hostId, Opened s.trace c u hostId →
    ∃ t, s.clientTasks.lookup c = some t ∧ t.session = some u ∧ t.hostId = hostId

theorem HostOk.mono (hsub : tr ⊆ tr') {t : HostTask}
    (hok : HostOk tr h t) : HostOk tr' h t where
  queue b hb := (hok.queue b hb).mono hsub
  live hl := hsub (hok.live hl)
  forward c b hpc := (hok.forward c b hpc).mono hsub

theorem ClientOk.mono (hsub : tr ⊆ tr')
    (hok : ClientOk tr c t) : ClientOk tr' c t where
  queue b hb := (hok.queue b hb).mono hsub
  session u hu := hsub (hok.session u hu)
  early := hok.early
  host h hh := hsub (hok.host h hh)
  frame b hb := by
    obtain ⟨b₀, u, hsent, hu, hst⟩ := hok.frame b hb
    exact ⟨b₀, u, hsub hsent, hu, hst⟩
  farewell := hok.farewell

theorem SessionOk.mono (hsub : tr ⊆ tr') {key : String} {session : Session}
    (hok : SessionOk tr key session) : SessionOk tr' key session := by
  obtain ⟨u, hkey, hopen⟩ := hok
  exact ⟨u, hkey, hsub hopen⟩

theorem EventOk.mono (hsub : tr ⊆ tr') {e : Event} (hok : EventOk tr e) :
    EventOk tr' e := by
  unfold EventOk at hok ⊢
  split
  · exact ToHost.mono hsub hok
  · exact FromHost.mono hsub hok
  · trivial

theorem inv_init : Inv State.init where
  hosts := by simp [State.init]
  sessions := by simp [State.init]
  hostTasks := by simp [State.init]
  clientTasks := by simp [State.init]
  trace := by simp [State.init]
  once := by simp [State.init, Opened]

/-! ### The primitive changes -/

theorem Inv.setHost (h : Inv s) {i : HostId} {t : HostTask}
    (hok : HostOk s.trace i t) : Inv (s.setHost i t) :=
  { h with
    hostTasks := by
      intro j u hj
      rw [State.setHost, Table.lookup_insert] at hj
      split at hj
      next heq =>
        obtain rfl := Option.some.inj hj
        exact heq ▸ hok
      · exact h.hostTasks j u hj }

theorem Inv.setClient (h : Inv s) {t₀ : ClientTask}
    (hl : s.clientTasks.lookup c = some t₀) (hs : t.session = t₀.session)
    (hi : t.hostId = t₀.hostId) (hok : ClientOk s.trace c t) : Inv (s.setClient c t) :=
  { h with
    clientTasks := by
      intro c' t' hc'
      rw [State.setClient, Table.lookup_insert] at hc'
      split at hc'
      next heq =>
        obtain rfl := Option.some.inj hc'
        exact heq ▸ hok
      · exact h.clientTasks c' t' hc'
    once := by
      intro c' u hostId hopen
      obtain ⟨t', hl', hs', hi'⟩ := h.once c' u hostId hopen
      by_cases heq : c' = c
      · rw [heq, hl] at hl'
        obtain rfl := Option.some.inj hl'
        exact ⟨t, by rw [State.setClient, Table.lookup_insert, if_pos heq],
          hs.trans hs', hi.trans hi'⟩
      · exact ⟨t', by rw [State.setClient, Table.lookup_insert, if_neg heq, hl'], hs', hi'⟩ }

theorem Inv.addClient (h : Inv s)
    (hnew : c ∉ s.clientTasks) (hok : ClientOk s.trace c t) : Inv (s.setClient c t) :=
  { h with
    clientTasks := by
      intro c' t' hc'
      rw [State.setClient, Table.lookup_insert] at hc'
      split at hc'
      next heq =>
        obtain rfl := Option.some.inj hc'
        exact heq ▸ hok
      · exact h.clientTasks c' t' hc'
    once := by
      intro c' u hostId hopen
      obtain ⟨t', hl', hs', hi'⟩ := h.once c' u hostId hopen
      have hne : c' ≠ c := by
        rintro rfl
        exact hnew (AList.lookup_isSome.mp (by rw [hl']; rfl))
      exact ⟨t', by rw [State.setClient, Table.lookup_insert, if_neg hne, hl'], hs', hi'⟩ }

theorem subset_log (s : State) (e : Event) : s.trace ⊆ (s.log e).trace :=
  List.subset_append_left _ _

theorem Inv.log (h : Inv s) {e : Event} (he : EventOk s.trace e)
    (hnot : ∀ c u hostId, e ≠ .opened c u hostId) : Inv (s.log e) where
  hosts hostId i hl := subset_log s e (h.hosts hostId i hl)
  sessions key session hl := (h.sessions key session hl).mono (subset_log s e)
  hostTasks i t hl := (h.hostTasks i t hl).mono (subset_log s e)
  clientTasks c t hl := (h.clientTasks c t hl).mono (subset_log s e)
  trace e' he' := by
    rcases List.mem_append.mp he' with hold | hnew
    · exact (h.trace e' hold).mono (subset_log s e)
    · obtain rfl := List.mem_singleton.mp hnew
      exact he.mono (subset_log s e')
  once c u hostId hopen := by
    rcases List.mem_append.mp hopen with hold | hnew
    · exact h.once c u hostId hold
    · exact absurd (List.mem_singleton.mp hnew).symm (hnot c u hostId)

theorem Inv.removeSession (h : Inv s) (key : String) : Inv (s.removeSession key) :=
  { h with
    sessions := fun _ _ hl => h.sessions _ _ (Table.lookup_erase_eq_some.mp hl).2 }

theorem Inv.eraseHost (h : Inv s) (hostId : String) :
    Inv { s with hosts := s.hosts.erase hostId } :=
  { h with hosts := fun _ _ hl => h.hosts _ _ (Table.lookup_erase_eq_some.mp hl).2 }

theorem Inv.sendHost (h : Inv s) {i : HostId}
    (hm : ∀ b, m = .binary b → ToHost s.trace i b) (hs : s.sendHost i m = some s') :
    Inv s' ∧ s'.clientTasks = s.clientTasks ∧ s'.trace = s.trace := by
  unfold State.sendHost at hs
  split at hs
  next t hl =>
    split at hs
    · obtain rfl := Option.some.inj hs
      have hok := h.hostTasks i t hl
      refine ⟨h.setHost ⟨fun b hb => ?_, hok.live, hok.forward⟩, rfl, rfl⟩
      rcases List.mem_append.mp hb with hold | hnew
      · exact hok.queue b hold
      · exact hm b (List.mem_singleton.mp hnew).symm
    · cases hs
  · cases hs

theorem Inv.sendClient (h : Inv s)
    (hm : ∀ b, m = .binary b → FromHost s.trace c b) : Inv (s.sendClient c m) := by
  unfold State.sendClient
  split
  next t hl =>
    split
    · exact h
    · have hok := h.clientTasks c t hl
      refine h.setClient hl rfl rfl { hok with queue := fun b hb => ?_ }
      rcases List.mem_append.mp hb with hold | hnew
      · exact hok.queue b hold
      · exact hm b (List.mem_singleton.mp hnew).symm
  · exact h

/-! ### Host tasks -/

theorem HostOk.go {t t' : HostTask} (hok : HostOk tr h t)
    (hq : t'.queue = t.queue) (hlive : t'.pc.Live → Registered tr h t'.hostId)
    (hfwd : ∀ c b, t'.pc ≠ .forward c b) : HostOk tr h t' where
  queue b hb := hok.queue b (hq ▸ hb)
  live := hlive
  forward c b hpc := absurd hpc (hfwd c b)

theorem HostOk.push {t : HostTask} (hok : HostOk tr h t) (hm : ∀ b, m ≠ .binary b) : HostOk tr h (t.push m) := by
  unfold HostTask.push
  split
  · refine { hok with queue := fun b hb => ?_ }
    rcases List.mem_append.mp hb with hold | hnew
    · exact hok.queue b hold
    · exact absurd (List.mem_singleton.mp hnew).symm (hm b)
  · exact hok

@[simp] theorem HostTask.push_pc (t : HostTask) (m : Message) : (t.push m).pc = t.pc := by
  unfold HostTask.push
  split <;> rfl

@[simp] theorem HostTask.push_hostId (t : HostTask) (m : Message) :
    (t.push m).hostId = t.hostId := by
  unfold HostTask.push
  split <;> rfl

variable {env : Env}

theorem inv_handleHostText (hinv : Inv s) {t : HostTask}
    (hok : HostOk s.trace h t) (hlive : Registered s.trace h t.hostId) (text : String) :
    Inv (handleHostText env s h t text) := by
  unfold handleHostText
  split
  · exact hinv.setHost hok
  · exact hinv.setHost hok
  · exact hinv.setHost hok
  next sessionId _ =>
    split
    · exact hinv.setHost hok
    next session hl =>
      split
      · exact hinv.setHost hok
      · -- taking the accept sender leaves the session's client and host as they are
        have hsessions : Inv { s with
            sessions := s.sessions.insert sessionId { session with accept := false } } :=
          { hinv with
            sessions := fun key session' hl' => by
              rw [Table.lookup_insert] at hl'
              split at hl'
              next heq =>
                obtain rfl := Option.some.inj hl'
                exact heq ▸ hinv.sessions sessionId session hl
              · exact hinv.sessions key session' hl' }
        exact hsessions.setHost (hok.go rfl (fun _ => hlive) (by simp))
  · exact hinv.setHost (hok.push (by simp [errorMessage]))

theorem inv_forwardFromHost (hinv : Inv s) {t : HostTask}
    {bytes : List UInt8} (hok : HostOk s.trace h t) (hlive : Registered s.trace h t.hostId)
    (hsent : .hostSends h bytes ∈ s.trace) : Inv (forwardFromHost env s h t bytes) := by
  have hrefuse : ∀ code message, HostOk s.trace h
      { t.push (errorMessage code message) with pc := .dropRemove true } := fun code message =>
    (hok.push (by simp [errorMessage])).go rfl (by simp [HostPc.Live]) (by simp)
  unfold forwardFromHost
  split
  · exact hinv.setHost (hrefuse _ _)
  next frame hdec =>
    split
    · exact hinv.setHost (hrefuse _ _)
    · split
      · exact hinv.setHost hok
      next id hid =>
        dsimp only
        split
        · exact hinv.setHost hok
        next session hl =>
          split
          · exact hinv.setHost hok
          next hsame =>
            split
            · exact hinv.setHost (hok.go rfl (fun _ => hlive) (by simp))
            · refine hinv.setHost ⟨hok.queue, fun _ => hlive, ?_⟩
              intro c b hpc
              obtain ⟨rfl, rfl⟩ := HostPc.forward.inj hpc
              -- the id of the frame is the id of the session it was looked up under
              obtain ⟨u, hkey, hopen⟩ := hinv.sessions _ session hl
              obtain rfl := Uuid.toText_injective hkey
              have hbytes : frame.sessionId = id.bytes := by
                unfold Uuid.fromSlice at hid
                split at hid
                · cases hid; rfl
                · cases hid
              rw [not_not] at hsame
              exact ⟨h, id, t.hostId, frame, hsent, hlive, hsame ▸ hopen, hdec, hbytes⟩

theorem inv_hostIncoming (hinv : Inv s) {t : HostTask}
    (hl : s.hostTasks.lookup h = some t) {m : Incoming}
    (hs : hostIncoming env s h t m = some s') : Inv s' := by
  have hok := hinv.hostTasks h t hl
  have hrefuse : ∀ message, Inv ((s.log (.hostReceives h
      (errorMessage "unauthorized" message))).setHost h { t with pc := .done }) := fun message =>
    (hinv.log (by exact trivial) (by simp)).setHost
      ((hok.mono (subset_log s _)).go rfl (by simp [HostPc.Live]) (by simp))
  unfold hostIncoming at hs
  split at hs
  · split at hs
    · split at hs
      · split at hs
        · exact Option.some.inj hs ▸ hrefuse _
        · exact Option.some.inj hs ▸ hinv.setHost (hok.go rfl (by simp [HostPc.Live]) (by simp))
      · exact Option.some.inj hs ▸ hrefuse _
    · exact Option.some.inj hs ▸ hrefuse _
  next hpc =>
    have hlive : Registered s.trace h t.hostId := hok.live (by simp [hpc, HostPc.Live])
    have hheard : HostOk s.trace h { t with last := s.now } :=
      hok.go rfl (fun _ => hlive) (by simp [hpc])
    cases m with
    | text text => exact Option.some.inj hs ▸ inv_handleHostText hinv hheard hlive text
    | binary bytes =>
      refine Option.some.inj hs ▸ inv_forwardFromHost (hinv.log (by exact trivial) (by simp))
        (hheard.mono (subset_log s _)) (subset_log s _ hlive) ?_
      exact List.mem_append_right _ (List.mem_singleton_self _)
    | ping payload => exact Option.some.inj hs ▸ hinv.setHost (hheard.push (by simp))
    | pong => exact Option.some.inj hs ▸ hinv.setHost hheard
    | closed =>
      exact Option.some.inj hs ▸ hinv.setHost (hok.go rfl (by simp [HostPc.Live]) (by simp))
  · cases hs

theorem inv_hostStep (hinv : Inv s) {t : HostTask}
    (hl : s.hostTasks.lookup h = some t) {sent : Bool}
    (hs : hostStep env s h t sent = some s') : Inv s' := by
  have hok := hinv.hostTasks h t hl
  rcases hpc : t.pc with - | - | exit | exit | ⟨exit, - | ⟨id, doomed⟩⟩ | - | - | client |
    ⟨client, bytes⟩ | key | -
  case register => simp [hostStep, hpc] at hs
  case greet =>
    simp only [hostStep, hpc] at hs
    split at hs
    · exact Option.some.inj hs ▸ (hinv.log (by exact trivial) (by simp)).setHost
        ((hok.mono (subset_log s _)).go rfl (by simp [HostPc.Live]) (by simp))
    · exact Option.some.inj hs ▸ hinv.setHost (hok.go rfl (by simp [HostPc.Live]) (by simp))
  case dropRemove =>
    simp only [hostStep, hpc] at hs
    exact Option.some.inj hs ▸ (hinv.eraseHost t.hostId).setHost
      (hok.go rfl (by simp [HostPc.Live]) (by simp))
  case dropCollect =>
    simp only [hostStep, hpc] at hs
    exact Option.some.inj hs ▸ hinv.setHost (hok.go rfl (by simp [HostPc.Live]) (by simp))
  case dropSessions.nil =>
    simp only [hostStep, hpc] at hs
    refine Option.some.inj hs ▸ hinv.setHost (hok.go rfl ?_ ?_)
    · cases exit <;> simp [HostPc.Live]
    · cases exit <;> simp
  case dropSessions.cons =>
    simp only [hostStep, hpc] at hs
    exact Option.some.inj hs ▸ (hinv.removeSession id).setHost
      (hok.go rfl (by simp [HostPc.Live]) (by simp))
  case insert =>
    simp only [hostStep, hpc] at hs
    obtain rfl := Option.some.inj hs
    -- logging the registration first, then entering it into the map
    have hlog := hinv.log (e := .registered h t.hostId) trivial (by simp)
    have hmem : Registered (s.log (.registered h t.hostId)).trace h t.hostId :=
      List.mem_append_right _ (List.mem_singleton_self _)
    have hhosts : Inv ({ s with hosts := s.hosts.insert t.hostId h }.log
        (.registered h t.hostId)) :=
      { hlog with
        hosts := fun hostId i hi => by
          have hi' : (s.hosts.insert t.hostId h).lookup hostId = some i := hi
          rw [Table.lookup_insert] at hi'
          split at hi'
          next heq =>
            obtain rfl := Option.some.inj hi'
            exact heq ▸ hmem
          · exact hlog.hosts hostId i hi' }
    exact hhosts.setHost ((hok.mono (subset_log s _)).go rfl (fun _ => hmem) (by simp))
  case loop => simp [hostStep, hpc] at hs
  case accept =>
    have hlive : Registered s.trace h t.hostId := hok.live (by simp [hpc, HostPc.Live])
    have hloop : Inv (s.setHost h { t with pc := .loop }) :=
      hinv.setHost (hok.go rfl (fun _ => hlive) (by simp))
    simp only [hostStep, hpc] at hs
    split at hs
    next c hc =>
      have hcok := hloop.clientTasks client c hc
      exact Option.some.inj hs ▸ hloop.setClient hc rfl rfl
        ⟨hcok.queue, hcok.session, hcok.early, hcok.host, hcok.frame, hcok.farewell⟩
    · exact Option.some.inj hs ▸ hloop
  case forward =>
    have hlive : Registered s.trace h t.hostId := hok.live (by simp [hpc, HostPc.Live])
    have hloop : Inv (s.setHost h { t with pc := .loop }) :=
      hinv.setHost (hok.go rfl (fun _ => hlive) (by simp))
    simp only [hostStep, hpc] at hs
    refine Option.some.inj hs ▸ hloop.sendClient fun b hb => ?_
    obtain rfl := Message.binary.inj hb
    exact hok.forward client _ hpc
  case expire =>
    have hlive : Registered s.trace h t.hostId := hok.live (by simp [hpc, HostPc.Live])
    simp only [hostStep, hpc] at hs
    exact Option.some.inj hs ▸ (hinv.removeSession key).setHost
      ((hok.push (by simp [errorMessage])).go rfl (fun _ => by simpa using hlive) (by simp))
  case done => simp [hostStep, hpc] at hs

/-! ### Client tasks -/

theorem ClientOk.go {t' : ClientTask} (hok : ClientOk tr c t)
    (hq : ∀ m ∈ t'.queue, m ∈ t.queue) (hs : t'.session = t.session) (hi : t'.hostId = t.hostId)
    (hearly : t'.pc.Early → t.pc.Early) (hhost : ∀ h, t'.pc.host? = some h → t.pc.host? = some h)
    (hframe : t'.pc.frame? = none) (hfarewell : ∀ b, t'.pc ≠ .close (some (.binary b))) :
    ClientOk tr c t' where
  queue b hb := hok.queue b (hq _ hb)
  session u hu := hi ▸ hok.session u (hs ▸ hu)
  early he := hs ▸ hok.early (hearly he)
  host h hh := hi ▸ hok.host h (hhost h hh)
  frame b hb := by rw [hframe] at hb; cases hb
  farewell := hfarewell

theorem ClientOk.stop (hok : ClientOk tr c t)
    {pc : ClientPc} (hpc : pc = .done ∨ ∃ m, pc = .close m ∧ ∀ b, m ≠ some (.binary b))
    {queue : List Message} (hq : ∀ m ∈ queue, m ∈ t.queue) :
    ClientOk tr c { t with pc, queue } := by
  rcases hpc with rfl | ⟨m, rfl, hm⟩
  · exact hok.go hq rfl rfl (by simp [ClientPc.Early]) (by simp [ClientPc.host?]) rfl (by simp)
  · exact hok.go hq rfl rfl (by simp [ClientPc.Early]) (by simp [ClientPc.host?]) rfl
      (fun b hb => hm b (ClientPc.close.inj hb))

theorem inv_close (hinv : Inv s)
    (hl : s.clientTasks.lookup c = some t) {m : Option Message}
    (hm : ∀ b, m ≠ some (.binary b)) : Inv (s.setClient c { t with pc := .close m }) :=
  hinv.setClient hl rfl rfl ((hinv.clientTasks c t hl).stop (Or.inr ⟨m, rfl, hm⟩) fun _ h => h)

theorem inv_refuseClient (hinv : Inv s)
    (hl : s.clientTasks.lookup c = some t) (code message : String) :
    Inv (refuseClient s c t code message) :=
  (hinv.log (by exact trivial) (by simp)).setClient hl rfl rfl
    (((hinv.clientTasks c t hl).mono (subset_log s _)).stop (Or.inl rfl) fun _ h => h)

theorem inv_badFrame (hinv : Inv s)
    (hl : s.clientTasks.lookup c = some t) : Inv (badFrame s c t) :=
  inv_close (hinv.log (by exact trivial) (by simp)) hl (by simp)

theorem inv_clientIncoming (hinv : Inv s)
    (hl : s.clientTasks.lookup c = some t) {m : Incoming}
    (hs : clientIncoming env s c t m = some s') : Inv s' := by
  have hok := hinv.clientTasks c t hl
  unfold clientIncoming at hs
  split at hs
  next hpc =>
    split at hs
    · split at hs
      · split at hs
        · exact Option.some.inj hs ▸ inv_refuseClient hinv hl _ _
        · exact Option.some.inj hs ▸ hinv.setClient hl rfl rfl
            (hok.go (fun _ h => h) rfl rfl (by simp [hpc, ClientPc.Early])
              (by simp [ClientPc.host?]) rfl (by simp))
      · exact Option.some.inj hs ▸ inv_refuseClient hinv hl _ _
    · exact Option.some.inj hs ▸ inv_refuseClient hinv hl _ _
  next host hpc =>
    cases m with
    | binary bytes =>
      have hlog : Inv (s.log (.clientSends c bytes)) :=
        hinv.log (by exact trivial) (by simp)
      have hok' := hok.mono (subset_log s (.clientSends c bytes))
      simp only at hs
      split at hs
      · obtain rfl := Option.some.inj hs
        have hclose : ClientOk (s.log (.clientSends c bytes)).trace c
            { t with last := s.now, pc := .close none } :=
          hok'.go (fun _ h => h) rfl rfl (by simp [ClientPc.Early]) (by simp [ClientPc.host?])
            rfl (by simp)
        exact (hlog.log (by exact trivial) (by simp)).setClient hl rfl rfl
          (hclose.mono (subset_log _ _))
      next stamped hst =>
        obtain rfl := Option.some.inj hs
        obtain ⟨u, hu, hst⟩ := Option.bind_eq_some_iff.mp hst
        refine hlog.setClient hl rfl rfl ⟨hok'.queue, hok'.session, by simp [ClientPc.Early],
          fun h hh => hok'.host h (by simpa [hpc, ClientPc.host?] using hh), ?_, by simp⟩
        intro b hb
        obtain rfl := Option.some.inj hb
        exact ⟨bytes, u, List.mem_append_right _ (List.mem_singleton_self _), hu,
          stampFrame_spec hst⟩
    | ping payload =>
      exact Option.some.inj hs ▸ hinv.log (by exact trivial) (by simp)
    | pong => exact Option.some.inj hs ▸ hinv
    | text text => exact Option.some.inj hs ▸ hinv
    | closed => exact Option.some.inj hs ▸ inv_close hinv hl (by simp)
  · cases hs

/-- **Opening a session** enters the map, the trace and the task at once. -/
theorem inv_openSession (hinv : Inv s)
    (hl : s.clientTasks.lookup c = some t) (hpc : t.pc = .openSession) (fresh : Uuid) :
    Inv (({ s with sessions := s.sessions.insert fresh.toText ⟨t.hostId, c, true, s.now⟩ }.log
      (.opened c fresh t.hostId)).setClient c
        { t with pc := .introduce, session := some fresh }) := by
  have hok := hinv.clientTasks c t hl
  have hnone : t.session = none := hok.early (by simp [hpc, ClientPc.Early])
  have hsub : s.trace ⊆ (s.log (.opened c fresh t.hostId)).trace := subset_log s _
  have hmem : Opened (s.log (.opened c fresh t.hostId)).trace c fresh t.hostId :=
    List.mem_append_right _ (List.mem_singleton_self _)
  refine ⟨fun hostId i hi => hsub (hinv.hosts hostId i hi), fun key session hk => ?_,
    fun i u hi => (hinv.hostTasks i u hi).mono hsub, fun c' t' hc' => ?_, fun e he => ?_,
    fun c' u hostId hopen => ?_⟩
  · have hk' : (s.sessions.insert fresh.toText ⟨t.hostId, c, true, s.now⟩).lookup key
        = some session := hk
    rw [Table.lookup_insert] at hk'
    split at hk'
    next heq =>
      obtain rfl := Option.some.inj hk'
      exact ⟨fresh, heq, hmem⟩
    · exact (hinv.sessions key session hk').mono hsub
  · have hc'' : (s.clientTasks.insert c
        { t with pc := .introduce, session := some fresh }).lookup c' = some t' := hc'
    rw [Table.lookup_insert] at hc''
    split at hc''
    next heq =>
      obtain rfl := Option.some.inj hc''
      obtain rfl := heq
      refine ⟨fun b hb => (hok.queue b hb).mono hsub, fun u hu => ?_, by simp [ClientPc.Early],
        by simp [ClientPc.host?], by simp [ClientPc.frame?], by simp⟩
      obtain rfl := Option.some.inj hu
      exact hmem
    · exact (hinv.clientTasks c' t' hc'').mono hsub
  · rcases List.mem_append.mp he with hold | hnew
    · exact (hinv.trace e hold).mono hsub
    · obtain rfl := List.mem_singleton.mp hnew
      trivial
  · have hlook : ∀ c', (s.clientTasks.insert c
        { t with pc := .introduce, session := some fresh }).lookup c'
        = if c' = c then some { t with pc := .introduce, session := some fresh }
          else s.clientTasks.lookup c' := fun c' => Table.lookup_insert _ _ _ _
    rcases List.mem_append.mp hopen with hold | hnew
    · obtain ⟨t', hl', hs', hi'⟩ := hinv.once c' u hostId hold
      have hne : c' ≠ c := by
        rintro rfl
        rw [hl] at hl'
        obtain rfl := Option.some.inj hl'
        rw [hnone] at hs'
        cases hs'
      exact ⟨t', (hlook c').trans (by rw [if_neg hne, hl']), hs', hi'⟩
    · obtain ⟨rfl, rfl, rfl⟩ := Event.opened.inj (List.mem_singleton.mp hnew)
      exact ⟨_, (hlook _).trans (if_pos rfl), rfl, rfl⟩

theorem allowConnect_snd (s : State) (connectsPerMinute : UInt32) (ip : ℕ) :
    ∃ rates, (s.allowConnect connectsPerMinute ip).2 = { s with rates } := by
  unfold State.allowConnect
  dsimp only
  split
  · exact ⟨_, rfl⟩
  · exact ⟨_, rfl⟩

theorem inv_clientStep (hinv : Inv s)
    (hl : s.clientTasks.lookup c = some t) {sent : Bool} {fresh : Uuid}
    (hs : clientStep env s c t sent fresh = some s') : Inv s' := by
  have hok := hinv.clientTasks c t hl
  rcases hpc : t.pc with - | - | - | - | - | - | host | host | host | host | ⟨host, bytes⟩ |
    ⟨host, bytes⟩ | ⟨host, bytes⟩ | farewell | -
  case start =>
    obtain ⟨rates, hrates⟩ := allowConnect_snd s env.config.connectsPerMinute t.ip
    have hinv₁ : Inv { s with rates } :=
      ⟨hinv.hosts, hinv.sessions, hinv.hostTasks, hinv.clientTasks, hinv.trace, hinv.once⟩
    rcases hallow : s.allowConnect env.config.connectsPerMinute t.ip with ⟨allowed, s₁⟩
    obtain rfl : s₁ = { s with rates } := by rw [← hrates, hallow]
    cases allowed with
    | false =>
      simp only [clientStep, hpc, hallow] at hs
      exact Option.some.inj hs ▸ inv_refuseClient hinv₁ hl _ _
    | true =>
      simp only [clientStep, hpc, hallow] at hs
      exact Option.some.inj hs ▸ hinv₁.setClient hl rfl rfl
        (hok.go (fun _ h => h) rfl rfl (by simp [hpc, ClientPc.Early])
          (by simp [ClientPc.host?]) rfl (by simp))
  case lookup =>
    simp only [clientStep, hpc] at hs
    split at hs
    · exact Option.some.inj hs ▸ hinv.setClient hl rfl rfl
        (hok.go (fun _ h => h) rfl rfl (by simp [hpc, ClientPc.Early])
          (by simp [ClientPc.host?]) rfl (by simp))
    · exact Option.some.inj hs ▸ inv_refuseClient hinv hl _ _
  case connect => simp [clientStep, hpc] at hs
  case count =>
    simp only [clientStep, hpc] at hs
    split at hs
    · exact Option.some.inj hs ▸ inv_refuseClient hinv hl _ _
    · exact Option.some.inj hs ▸ hinv.setClient hl rfl rfl
        (hok.go (fun _ h => h) rfl rfl (by simp [hpc, ClientPc.Early])
          (by simp [ClientPc.host?]) rfl (by simp))
  case openSession =>
    simp only [clientStep, hpc] at hs
    exact Option.some.inj hs ▸ inv_openSession hinv hl hpc fresh
  case introduce =>
    simp only [clientStep, hpc] at hs
    split at hs
    · exact Option.some.inj hs ▸ inv_close hinv hl (by simp [errorMessage])
    next host hhost =>
      refine Option.some.inj hs ▸ hinv.setClient hl rfl rfl
        ⟨hok.queue, hok.session, by simp [ClientPc.Early], fun h hh => ?_,
          by simp [ClientPc.frame?], by simp⟩
      obtain rfl : host = h := by simpa [ClientPc.host?] using hh
      exact hinv.hosts _ _ hhost
  case incoming =>
    simp only [clientStep, hpc] at hs
    split at hs
    · exact Option.some.inj hs ▸ inv_close hinv hl (by simp [errorMessage])
    next s₁ hsend =>
      obtain ⟨hinv₁, htasks, htrace⟩ := hinv.sendHost (by simp) hsend
      have hl₁ : s₁.clientTasks.lookup c = some t := htasks ▸ hl
      refine Option.some.inj hs ▸ hinv₁.setClient hl₁ rfl rfl (htrace ▸ ?_)
      exact hok.go (fun _ h => h) rfl rfl (by simp [ClientPc.Early])
        (by simp [hpc, ClientPc.host?]) rfl (by simp)
  case await =>
    simp only [clientStep, hpc] at hs
    split at hs
    · exact Option.some.inj hs ▸ hinv.setClient hl rfl rfl
        (hok.go (fun _ h => h) rfl rfl (by simp [ClientPc.Early])
          (by simp [hpc, ClientPc.host?]) rfl (by simp))
    · split at hs
      · exact Option.some.inj hs ▸ inv_close hinv hl (by simp [errorMessage])
      · cases hs
  case connected =>
    simp only [clientStep, hpc] at hs
    split at hs
    · exact Option.some.inj hs ▸ (hinv.log (by exact trivial) (by simp)).setClient hl rfl rfl
        ((hok.mono (subset_log s _)).go (fun _ h => h) rfl rfl (by simp [ClientPc.Early])
          (by simp [hpc, ClientPc.host?]) rfl (by simp))
    · exact Option.some.inj hs ▸ inv_close hinv hl (by simp)
  case loop => simp [clientStep, hpc] at hs
  case checkSession | checkHost =>
    simp only [clientStep, hpc] at hs
    split at hs
    · exact Option.some.inj hs ▸ hinv.setClient hl rfl rfl
        ⟨hok.queue, hok.session, by simp [ClientPc.Early],
          fun h hh => hok.host h (by simpa [hpc, ClientPc.host?] using hh),
          fun b hb => hok.frame b (by simpa [hpc, ClientPc.frame?] using hb), by simp⟩
    · exact Option.some.inj hs ▸ inv_badFrame hinv hl
  case send =>
    simp only [clientStep, hpc] at hs
    split at hs
    · exact Option.some.inj hs ▸ inv_badFrame hinv hl
    next s₁ hsend =>
      -- the frame in flight belongs to the session, whose host this is
      obtain ⟨b₀, u, hsent, hu, hst⟩ := hok.frame bytes (by simp [hpc, ClientPc.frame?])
      have hreg := hok.host host (by simp [hpc, ClientPc.host?])
      have hto : ToHost s.trace host bytes :=
        ⟨c, u, t.hostId, b₀, hsent, hok.session u hu, hreg, hst⟩
      obtain ⟨hinv₁, htasks, htrace⟩ := hinv.sendHost
        (fun b hb => Message.binary.inj hb ▸ hto) hsend
      have hl₁ : s₁.clientTasks.lookup c = some t := htasks ▸ hl
      refine Option.some.inj hs ▸ hinv₁.setClient hl₁ rfl rfl (htrace ▸ ?_)
      exact hok.go (fun _ h => h) rfl rfl (by simp [ClientPc.Early])
        (by simp [hpc, ClientPc.host?]) rfl (by simp)
  case close =>
    simp only [clientStep, hpc] at hs
    have hgone := hinv.removeSession ((t.session.map Uuid.toText).getD "")
    rcases farewell with - | m
    · exact Option.some.inj hs ▸ hgone.setClient hl rfl rfl
        (hok.stop (Or.inl rfl) fun _ h => h)
    · have hm : ∀ b, m ≠ .binary b := by
        rintro b rfl
        exact hok.farewell b hpc
      have hev : EventOk s.trace (.clientReceives c m) := by
        cases m with
        | binary b => exact absurd rfl (hm b)
        | text _ | pong _ => trivial
      exact Option.some.inj hs ▸ (hgone.log hev (by simp)).setClient hl rfl rfl
        ((hok.mono (subset_log s _)).stop (Or.inl rfl) fun _ h => h)
  case done => simp [clientStep, hpc] at hs

/-! ### Runs -/

theorem inv_step {a : Action} (hinv : Inv s) (hs : step env s a = some s') :
    Inv s' := by
  have hhost : ∀ {h : HostId} {f : HostTask → Option State}, withHost s h f = some s' →
      ∃ t, s.hostTasks.lookup h = some t ∧ HostOk s.trace h t ∧ f t = some s' := by
    intro h f hf
    obtain ⟨t, hl, ht⟩ := Option.bind_eq_some_iff.mp hf
    exact ⟨t, hl, hinv.hostTasks h t hl, ht⟩
  have hclient : ∀ {c : ClientId} {f : ClientTask → Option State}, withClient s c f = some s' →
      ∃ t, s.clientTasks.lookup c = some t ∧ ClientOk s.trace c t ∧ f t = some s' := by
    intro c f hf
    obtain ⟨t, hl, ht⟩ := Option.bind_eq_some_iff.mp hf
    exact ⟨t, hl, hinv.clientTasks c t hl, ht⟩
  cases a with
  | tick duration =>
    obtain rfl := Option.some.inj hs
    exact ⟨hinv.hosts, hinv.sessions, hinv.hostTasks, hinv.clientTasks, hinv.trace, hinv.once⟩
  | hostConnect h =>
    simp only [step, Option.ite_none_left_eq_some, Option.some.injEq] at hs
    exact hs.2 ▸ hinv.setHost ⟨by simp, by simp [HostPc.Live], by simp⟩
  | hostIncoming h m =>
    obtain ⟨t, hl, -, hs⟩ := hhost hs
    exact inv_hostIncoming hinv hl hs
  | hostStep h sent =>
    obtain ⟨t, hl, -, hs⟩ := hhost hs
    exact inv_hostStep hinv hl hs
  | hostPing h =>
    obtain ⟨t, hl, hok, hs⟩ := hhost hs
    obtain ⟨⟨hpc, -⟩, rfl⟩ := by simpa using hs
    have hlive := hok.live (by simp [hpc, HostPc.Live])
    exact hinv.setHost ((hok.push (by simp)).go rfl (fun _ => by simpa using hlive) (by simp [hpc]))
  | hostIdle h =>
    obtain ⟨t, hl, hok, hs⟩ := hhost hs
    obtain ⟨-, rfl⟩ := by simpa using hs
    exact hinv.setHost (hok.go rfl (by simp [HostPc.Live]) (by simp))
  | hostWrite h sent =>
    obtain ⟨t, hl, hok, hs⟩ := hhost hs
    split at hs
    · cases hs
    next m rest hq =>
      have hrest : HostOk s.trace h { t with queue := rest } :=
        ⟨fun b hb => hok.queue b (hq ▸ List.mem_cons_of_mem _ hb), hok.live, hok.forward⟩
      split at hs
      · have hev : EventOk s.trace (.hostReceives h m) := by
          cases m with
          | binary b => exact hok.queue b (hq ▸ List.mem_cons_self)
          | text _ | pong _ => trivial
        exact Option.some.inj hs ▸ (hinv.log hev (by simp)).setHost (hrest.mono (subset_log s _))
      · exact Option.some.inj hs ▸ hinv.setHost ⟨by simp, hok.live, hok.forward⟩
  | clientConnect c hostId ip =>
    simp only [step, Option.ite_none_left_eq_some, Option.some.injEq] at hs
    exact hs.2 ▸ hinv.addClient hs.1 ⟨by simp, by simp, by simp, by simp [ClientPc.host?],
      by simp [ClientPc.frame?], by simp⟩
  | clientIncoming c m =>
    obtain ⟨t, hl, -, hs⟩ := hclient hs
    exact inv_clientIncoming hinv hl hs
  | clientStep c sent fresh =>
    obtain ⟨t, hl, -, hs⟩ := hclient hs
    exact inv_clientStep hinv hl hs
  | clientAcceptTimeout c =>
    obtain ⟨t, hl, -, hs⟩ := hclient hs
    split at hs
    · split at hs
      · exact Option.some.inj hs ▸ inv_close hinv hl (by simp [errorMessage])
      · cases hs
    · cases hs
  | clientWrite c sent =>
    obtain ⟨t, hl, hok, hs⟩ := hclient hs
    split at hs
    next host m rest hpc hq =>
      have hmem : ∀ m' ∈ rest, m' ∈ t.queue := fun m' hm' => hq ▸ List.mem_cons_of_mem _ hm'
      split at hs
      · have hev : EventOk s.trace (.clientReceives c m) := by
          cases m with
          | binary b => exact hok.queue b (hq ▸ List.mem_cons_self)
          | text _ | pong _ => trivial
        exact Option.some.inj hs ▸ (hinv.log hev (by simp)).setClient hl rfl rfl
          ((hok.mono (subset_log s _)).go hmem rfl rfl id (fun _ h => h)
            (by simp [hpc, ClientPc.frame?]) (by simp [hpc]))
      · exact Option.some.inj hs ▸ hinv.setClient hl rfl rfl
          (hok.stop (Or.inr ⟨none, rfl, by simp⟩) hmem)
    · cases hs
  | clientClosed c =>
    obtain ⟨t, hl, -, hs⟩ := hclient hs
    split at hs
    · split at hs
      · exact Option.some.inj hs ▸ inv_close hinv hl (by simp)
      · cases hs
    · cases hs
  | clientIdle c =>
    obtain ⟨t, hl, -, hs⟩ := hclient hs
    split at hs
    · split at hs
      · exact Option.some.inj hs ▸ inv_close hinv hl (by simp)
      · cases hs
    · cases hs

theorem inv_run {actions : List Action}
    (h : Machine.run (step env) State.init actions = some s) : Inv s :=
  Machine.run_inv (fun hi hs => inv_step hi hs) inv_init h

/-! ### Isolation -/

/-- No two sessions were given the same id. -/
def UniqueIds (tr : List Event) : Prop :=
  ∀ c c' u hostId hostId', Opened tr c u hostId → Opened tr c' u hostId' → c = c'

/-- A foreign frame from a client goes nowhere: the task is on its way out, and
no queue and no map has changed. -/
theorem foreign_refused {host : HostId} {u : Uuid}
    (hl : s.clientTasks.lookup c = some t) (hpc : t.pc = .loop host) (hu : t.session = some u) {frame : RelayFrame} (hdec : decodeRelayFrame b = .ok frame)
    (hnil : frame.sessionId ≠ Uuid.nil.bytes) (hforeign : frame.sessionId ≠ u.bytes) :
    ∃ s', step env s (.clientIncoming c (.binary b)) = some s' ∧
      s'.hostTasks = s.hostTasks ∧ s'.hosts = s.hosts ∧ s'.sessions = s.sessions ∧
      s'.clientTasks = s.clientTasks.insert c { t with pc := .close none, last := s.now } := by
  have hst : t.session.bind (stampFrame · env.config.maxPayloadLen b) = none := by
    rw [hu, Option.bind_some, stampFrame_foreign hdec hnil hforeign]
  refine ⟨badFrame (s.log (.clientSends c b)) c { t with last := s.now }, ?_, rfl, rfl, rfl, rfl⟩
  simp [step, withClient, hl, clientIncoming, hpc, hst]
  rfl

/-- **Sessions are isolated**, whatever the tasks do and in whatever order, and
whatever hosts and clients send.  A frame delivered to a host connection was
sent by the client of a session opened for a host id that connection registered
under, and carries that session's id with channel and payload unchanged; a
frame delivered to a client was sent, with the id of its session, by a host
connection registered under the session's host id; each client has one session,
and as long as session ids are not repeated, a frame with a session's id is
delivered to no other client, and to a host only from that session's client. -/
theorem relay_isolation {s : State} {actions : List Action}
    (h : Machine.run (step env) State.init actions = some s) :
    (∀ i b, .hostReceives i (.binary b) ∈ s.trace →
      ∃ c session hostId b₀, .clientSends c b₀ ∈ s.trace ∧ Opened s.trace c session hostId ∧
        Registered s.trace i hostId ∧ Stamped session b₀ b) ∧
    (∀ c b, .clientReceives c (.binary b) ∈ s.trace →
      ∃ i session hostId frame, .hostSends i b ∈ s.trace ∧ Registered s.trace i hostId ∧
        Opened s.trace c session hostId ∧ decodeRelayFrame b = .ok frame ∧
        frame.sessionId = session.bytes) ∧
    (∀ c t host u b frame, s.clientTasks.lookup c = some t → t.pc = .loop host →
      t.session = some u → decodeRelayFrame b = .ok frame → frame.sessionId ≠ Uuid.nil.bytes →
      frame.sessionId ≠ u.bytes →
      ∃ s', step env s (.clientIncoming c (.binary b)) = some s' ∧
        s'.hostTasks = s.hostTasks ∧ s'.hosts = s.hosts ∧ s'.sessions = s.sessions ∧
        s'.clientTasks = s.clientTasks.insert c { t with pc := .close none, last := s.now }) ∧
    (∀ c u u' hostId hostId', Opened s.trace c u hostId → Opened s.trace c u' hostId' →
      u = u' ∧ hostId = hostId') ∧
    (UniqueIds s.trace → ∀ c u hostId b frame, Opened s.trace c u hostId →
      decodeRelayFrame b = .ok frame → frame.sessionId = u.bytes →
      (∀ c', .clientReceives c' (.binary b) ∈ s.trace → c' = c) ∧
      (∀ i, .hostReceives i (.binary b) ∈ s.trace →
        Registered s.trace i hostId ∧ ∃ b₀, .clientSends c b₀ ∈ s.trace ∧ Stamped u b₀ b)) := by
  have hinv := inv_run h
  have honce : ∀ c u u' hostId hostId', Opened s.trace c u hostId → Opened s.trace c u' hostId' →
      u = u' ∧ hostId = hostId' := by
    intro c u u' hostId hostId' hu hu'
    obtain ⟨t, hl, hs, hi⟩ := hinv.once c u hostId hu
    obtain ⟨t', hl', hs', hi'⟩ := hinv.once c u' hostId' hu'
    obtain rfl := Option.some.inj (hl.symm.trans hl')
    exact ⟨Option.some.inj (hs.symm.trans hs'), hi.symm.trans hi'⟩
  refine ⟨fun i b hb => hinv.trace _ hb, fun c b hb => hinv.trace _ hb,
    fun c t host u b frame hl hpc hu hdec hnil hforeign =>
      foreign_refused hl hpc hu hdec hnil hforeign, honce, ?_⟩
  intro hunique c u hostId b frame hopen hdec hid
  constructor
  · intro c' hb
    obtain ⟨i, u', hostId', frame', -, -, hopen', hdec', hid'⟩ := hinv.trace _ hb
    obtain rfl := Except.ok.inj (hdec.symm.trans hdec')
    obtain rfl := Uuid.ext (hid'.symm.trans hid)
    exact hunique c' c u' hostId' hostId hopen' hopen
  · intro i hb
    obtain ⟨c', u', hostId', b₀, hsent, hopen', hreg, hst⟩ := hinv.trace _ hb
    obtain ⟨frame₀, hdec₀, hid₀, hdec'⟩ := hst
    have hsame := Except.ok.inj (hdec.symm.trans hdec')
    rw [hsame] at hid
    obtain rfl := Uuid.ext hid
    obtain rfl := hunique c' c u' hostId' hostId hopen' hopen
    obtain ⟨-, rfl⟩ := honce _ _ _ _ _ hopen' hopen
    exact ⟨hreg, b₀, hsent, frame₀, hdec₀, hid₀, hdec'⟩

/-! ### One known run -/

/-- `b"test-secret"`. -/
def knownSecret : List UInt8 := [116, 101, 115, 116, 45, 115, 101, 99, 114, 101, 116]

def knownToken : String := "a8c4175edecd9485186f266e17dd0670bc5f5f13799b361e7b32fa80a6532862"

/-- HMAC-SHA256 on the inputs of the run. -/
def knownHmac : Hmac := fun key message =>
  if key = knownSecret ∧ message = utf8 "host-1" then
    [168, 196, 23, 94, 222, 205, 148, 133, 24, 111, 38, 110, 23, 221, 6, 112,
      188, 95, 95, 19, 121, 155, 54, 30, 123, 50, 250, 128, 166, 83, 40, 98]
  else List.replicate 32 0

def registerText : String :=
  "\x7b\"type\":\"register\",\"host_id\":\"host-1\",\"token\":\"" ++ knownToken ++ "\"\x7d"

def connectText : String :=
  "\x7b\"type\":\"connect\",\"host_id\":\"host-1\",\"token\":\"" ++ knownToken ++ "\"\x7d"

def acceptText : String :=
  "\x7b\"type\":\"accept\",\"session_id\":\"01020304-0506-4708-890a-0b0c0d0e0f10\"\x7d"

/-- The JSON parser on the texts of the run. -/
def knownParse : String → Option RelayControl := fun text =>
  if text = registerText then some (.register "host-1" knownToken)
  else if text = connectText then some (.connect "host-1" knownToken)
  else if text = acceptText then some (.accept "01020304-0506-4708-890a-0b0c0d0e0f10")
  else none

def knownEnv : Env := ⟨RelayConfig.fromSecret knownSecret, knownHmac, knownParse⟩

def knownId : Uuid := ⟨[1, 2, 3, 4, 5, 6, 0x47, 8, 0x89, 10, 11, 12, 13, 14, 15, 16], rfl⟩

/-- Host `h` registers as `host-1`. -/
def registers (h : HostId) : List Action :=
  [.hostConnect h, .hostIncoming h (.text registerText), .hostStep h true,
    .hostStep h true, .hostStep h true, .hostStep h true, .hostStep h true]

/-- Client 0 connects to `host-1`, and host `h` accepts. -/
def connects (h : HostId) : List Action :=
  [.clientConnect 0 "host-1" 1, .clientStep 0 true knownId, .clientStep 0 true knownId,
    .clientIncoming 0 (.text connectText), .clientStep 0 true knownId, .clientStep 0 true knownId,
    .clientStep 0 true knownId, .clientStep 0 true knownId, .hostIncoming h (.text acceptText),
    .hostStep h true, .clientStep 0 true knownId, .clientStep 0 true knownId]

/-- The client sends a frame with the nil id, the host one with the session's. -/
def exchange : List Action :=
  [.clientIncoming 0 (.binary (Uuid.nil.bytes ++ [relayChannelTcp, 7])),
    .clientStep 0 true knownId, .clientStep 0 true knownId, .clientStep 0 true knownId,
    .hostWrite 0 true, .hostWrite 0 true,
    .hostIncoming 0 (.binary (knownId.bytes ++ [relayChannelUdp, 8])), .hostStep 0 true,
    .clientWrite 0 true]

theorem relay_isolation_exchange :
    ∃ s, Machine.run (step knownEnv) State.init (registers 0 ++ connects 0 ++ exchange) = some s ∧
      .hostReceives 0 (.binary (knownId.bytes ++ [relayChannelTcp, 7])) ∈ s.trace ∧
      (∃ i session hostId frame,
        .hostSends i (knownId.bytes ++ [relayChannelUdp, 8]) ∈ s.trace ∧
        Registered s.trace i hostId ∧ Opened s.trace 0 session hostId ∧
        decodeRelayFrame (knownId.bytes ++ [relayChannelUdp, 8]) = .ok frame ∧
        frame.sessionId = session.bytes) := by
  have hrun : (Machine.run (step knownEnv) State.init
      (registers 0 ++ connects 0 ++ exchange)).map (·.trace) = some
        [.hostReceives 0 (.text (.registered "host-1")), .registered 0 "host-1",
          .opened 0 knownId "host-1", .clientReceives 0 (.text .connected),
          .clientSends 0 (Uuid.nil.bytes ++ [relayChannelTcp, 7]),
          .hostReceives 0 (.text (.incoming "01020304-0506-4708-890a-0b0c0d0e0f10")),
          .hostReceives 0 (.binary (knownId.bytes ++ [relayChannelTcp, 7])),
          .hostSends 0 (knownId.bytes ++ [relayChannelUdp, 8]),
          .clientReceives 0 (.binary (knownId.bytes ++ [relayChannelUdp, 8]))] := by
    decide
  obtain ⟨s, hs, htrace⟩ := Option.map_eq_some_iff.mp hrun
  exact ⟨s, hs, by simp [htrace], (relay_isolation hs).2.1 0 _ (by simp [htrace])⟩

end MahoRD.Relay

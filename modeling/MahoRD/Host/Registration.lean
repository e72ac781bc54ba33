/-
MahoRD/Host/Registration.lean

UDP registration (`discover_udp_peer` in `maho-host/src/session.rs`).  All sessions of a host
share one UDP socket; a session that knows no UDP address of its peer takes datagrams from it,
at most `maxUdpDiscoveryBurst` in an iteration, until one opens under its key as an empty Ping.
What it cannot open it discards.

A step is one `recv_from` of one session, a datagram sealed by a client, or one that the network
brings: any bytes from any address.
-/
import MahoRD.Net.DatagramChannel

namespace MahoRD.Registration

open DatagramCipher
open DatagramChannel (Transfer)

/-! ### Sessions -/

structure SocketAddr where
  ip : List UInt8
  port : UInt16
  deriving DecidableEq

def maxUdpDiscoveryBurst : ℕ := 32

/-- The buffer of a `recv_from`. -/
def bufferSize : ℕ := 2048

/-- `channel`: what the client seals and the host opens.  `early` is what the client has sealed
before the session knew its UDP address; `budget` is what is left of a call of
`discover_udp_peer`. -/
structure Session where
  tcpPeer : SocketAddr
  channel : DatagramChannel.State
  early : List Transfer
  udpPeer : Option SocketAddr
  budget : ℕ
  live : Bool

/-- `socket`: what can be received; `arrived`: all that ever could. -/
structure State (τ : Type*) where
  sessions : τ → Option Session
  socket : List (List UInt8 × SocketAddr)
  arrived : List (List UInt8 × SocketAddr)

inductive Label (τ : Type*)
  | authenticate (t : τ) (masterKey sessionSalt : List UInt8) (tcpPeer : SocketAddr)
  | «seal» (t : τ) (header : PacketHeader) (payload : List UInt8)
  | arrive (bytes : List UInt8) (source : SocketAddr)
  | discover (t : τ)
  | recv (t : τ)
  | reset (t : τ)
  | leave (t : τ)

section Machine

variable {τ : Type*} [DecidableEq τ] (hkdf : Hkdf) (aes : List UInt8 → Aead) (windows : Bool)

namespace State

def init : State τ := ⟨fun _ => none, [], []⟩

def set (s : State τ) (t : τ) (session : Session) : State τ :=
  { s with sessions := Function.update s.sessions t (some session) }

end State

/-- The session goes on with the next datagram. -/
def Session.next (session : Session) : Session := { session with budget := session.budget - 1 }

/-- A datagram is received.  On Windows one that does not fit the buffer is an error that is
passed over, elsewhere it is cut. -/
def receive (session : Session) (bytes : List UInt8) (source : SocketAddr) : Session :=
  if windows ∧ bufferSize < bytes.length then session.next
  else
    let datagram := bytes.take bufferSize
    if source.ip = session.tcpPeer.ip then
      if session.udpPeer.isSome then session.next
      else if datagram.length < 40 then session.next
      else
        match openDatagram aes session.channel.opener datagram with
        | (.ok (header, payload), opener) =>
          let session := { session with channel := { session.channel with
            opener
            delivered := ⟨header, payload, datagram⟩ :: session.channel.delivered } }
          if header.packetType = .ping ∧ payload = [] then
            { session with udpPeer := some source, budget := 0 }
          else session.next
        | (.error _, opener) =>
          Session.next { session with channel := { session.channel with opener } }
    else session.next

def step (s : State τ) : Label τ → Option (State τ)
  | .authenticate t masterKey sessionSalt tcpPeer =>
    match s.sessions t, derive hkdf masterKey sessionSalt .clientToHost with
    | none, .ok c => some (s.set t ⟨tcpPeer, DatagramChannel.start c, [], none, 0, true⟩)
    | _, _ => none
  | .seal t header payload =>
    (s.sessions t).map fun session =>
      match sealDatagram aes session.channel.sealer header payload with
      | (.ok datagram, sealer) =>
        let x : Transfer := ⟨header, payload, datagram⟩
        s.set t { session with
          channel := { session.channel with sealer, sent := x :: session.channel.sent }
          early := if session.udpPeer = none then x :: session.early else session.early }
      | (.error _, sealer) => s.set t { session with channel := { session.channel with sealer } }
  | .arrive bytes source => some { s with
      socket := s.socket ++ [(bytes, source)]
      arrived := s.arrived ++ [(bytes, source)] }
  | .discover t =>
    match s.sessions t with
    | some session =>
      if session.live ∧ session.budget = 0 ∧ session.udpPeer = none then
        some (s.set t { session with budget := maxUdpDiscoveryBurst })
      else none
    | none => none
  | .recv t =>
    match s.sessions t with
    | some session =>
      if session.live ∧ 0 < session.budget then
        match s.socket with
        | [] => some (s.set t { session with budget := 0 })
        | (bytes, source) :: socket =>
          some { s.set t (receive aes windows session bytes source) with socket }
      else none
    | none => none
  | .reset t =>
    match s.sessions t with
    | some session =>
      if session.live ∧ 0 < session.budget then some (s.set t session.next) else none
    | none => none
  | .leave t => (s.sessions t).map fun session => s.set t { session with live := false }

end Machine

/-! ### What a session receives -/

/-- What becomes of a session that receives a datagram. -/
inductive Received (aes : List UInt8 → Aead) (session : Session) (datagram : List UInt8)
    (source : SocketAddr) : Session → Prop
  | discarded : Received aes session datagram source session.next
  | opened {header payload opener udpPeer budget} (hip : source.ip = session.tcpPeer.ip)
      (hopen : openDatagram aes session.channel.opener datagram = (.ok (header, payload), opener))
      (hpeer : udpPeer = session.udpPeer ∨
        udpPeer = some source ∧ budget = 0 ∧ header.packetType = .ping ∧ payload = [])
      (hbudget : budget ≤ session.budget) :
      Received aes session datagram source { session with
        channel := { session.channel with
          opener
          delivered := ⟨header, payload, datagram⟩ :: session.channel.delivered }
        udpPeer
        budget }

variable {aes : List UInt8 → Aead} {windows : Bool} {session : Session} {bytes : List UInt8}
  {source : SocketAddr}

theorem receive_cases : Received aes session (bytes.take bufferSize) source
    (receive aes windows session bytes source) := by
  simp only [receive]
  split
  · exact .discarded
  · split
    · rename_i hip
      split
      · exact .discarded
      · split
        · exact .discarded
        · split
          · rename_i hopen
            split
            · rename_i hping
              exact .opened hip hopen (.inr ⟨rfl, rfl, hping⟩) (Nat.zero_le _)
            · exact .opened hip hopen (.inl rfl) (Nat.sub_le _ _)
          · rename_i hopen
            obtain rfl := openDatagram_error hopen
            exact .discarded
    · exact .discarded

theorem Received.delivered {datagram : List UInt8} {session' : Session} {x : Transfer}
    (h : Received aes session datagram source session') (hx : x ∈ session.channel.delivered) :
    x ∈ session'.channel.delivered := by
  cases h with
  | discarded => exact hx
  | opened => exact List.mem_cons_of_mem _ hx

variable (windows) in
theorem receive_opens {header : PacketHeader} {payload : List UInt8} {opener : DatagramCipher}
    (hip : source.ip = session.tcpPeer.ip) (hpeer : session.udpPeer = none)
    (hsize : bytes.length ≤ bufferSize)
    (hopen : openDatagram aes session.channel.opener bytes = (.ok (header, payload), opener)) :
    ⟨header, payload, bytes⟩ ∈ (receive aes windows session bytes source).channel.delivered := by
  have hlength : ¬ bytes.length < 40 := not_lt.mpr (openDatagram_eq_ok_iff.mp hopen).1
  simp only [receive, not_lt.mpr hsize, and_false, if_false, List.take_of_length_le hsize, hip,
    if_true, hpeer, Option.isSome_none, Bool.false_eq_true, hlength, hopen]
  split
  · exact List.mem_cons_self ..
  · exact List.mem_cons_self ..

/-! ### The invariant -/

/-- What holds of a session. -/
structure Session.Ok (aes : List UInt8 → Aead) (arrived : List (List UInt8 × SocketAddr))
    (session : Session) : Prop where
  channel : ∃ c : DatagramCipher, c.noncePrefix.length = 4 ∧
    DatagramChannel.Inv aes c session.channel
  early : ∀ x ∈ session.early, x ∈ session.channel.sent
  registered : ∀ a, session.udpPeer = some a → a.ip = session.tcpPeer.ip ∧
    ∃ x ∈ session.channel.sent, x.header.packetType = .ping ∧ x.payload = [] ∧
      ∃ bytes, (bytes, a) ∈ arrived ∧ bytes.take bufferSize = x.datagram
  budget : 0 < session.budget → session.udpPeer = none

structure Inv {τ : Type*} (aes : List UInt8 → Aead) (s : State τ) : Prop where
  ok : ∀ t session, s.sessions t = some session → session.Ok aes s.arrived
  arrived : ∀ d ∈ s.socket, d ∈ s.arrived

section Run

variable {τ : Type*} {hkdf : Hkdf} {s s' : State τ} {t : τ}

/-- The ideal cipher: what opens for a session was sealed by its client. -/
def Ideal (aes : List UInt8 → Aead) (s : State τ) : Label τ → Prop
  | .recv t => ∀ session ∈ s.sessions t, ∀ d ∈ s.socket.head?,
    DatagramChannel.Ideal aes session.channel (.present (d.1.take bufferSize))
  | _ => True

/-- A datagram that the client of a session has sealed early, and that was not opened before, is
taken by that session, whole and from the address of its peer, before one sealed 4096 or more
later is opened. -/
def Apart (s : State τ) : Label τ → Prop
  | .recv t => ∀ d ∈ s.socket.head?, ∀ u, ∀ session ∈ s.sessions u, session.live = true →
    ∀ x ∈ session.early, x.datagram = d.1 → x ∉ session.channel.delivered →
      u = t ∧ d.2.ip = session.tcpPeer.ip ∧ d.1.length ≤ bufferSize ∧
        ∀ y ∈ session.channel.delivered, y.counter.toNat < x.counter.toNat + 4096
  | _ => True

theorem Session.Ok.next {arrived : List (List UInt8 × SocketAddr)} (h : session.Ok aes arrived) :
    session.next.Ok aes arrived :=
  { h with budget := fun hbudget => h.budget (Nat.lt_of_lt_of_le hbudget (Nat.sub_le _ _)) }

theorem Session.Ok.mono {arrived arrived' : List (List UInt8 × SocketAddr)}
    (h : session.Ok aes arrived) (hsub : arrived ⊆ arrived') : session.Ok aes arrived' := by
  refine { h with registered := fun a ha => ?_ }
  obtain ⟨hip, x, hx, hping, hpayload, bytes, hmem, htake⟩ := h.registered a ha
  exact ⟨hip, x, hx, hping, hpayload, bytes, hsub hmem, htake⟩

theorem Session.Ok.received {arrived : List (List UInt8 × SocketAddr)} {session' : Session}
    (h : session.Ok aes arrived)
    (hideal : DatagramChannel.Ideal aes session.channel (.present (bytes.take bufferSize)))
    (harrived : (bytes, source) ∈ arrived)
    (hreceived : Received aes session (bytes.take bufferSize) source session') :
    session'.Ok aes arrived := by
  cases hreceived with
  | discarded => exact h.next
  | @opened header payload opener udpPeer budget hip hopen hpeer hbudget =>
    obtain ⟨c, hstarts, hinv⟩ := h.channel
    have hsent := DatagramChannel.opened_sent hinv hideal hopen
    refine ⟨⟨c, hstarts, DatagramChannel.inv_opened hinv hideal hopen⟩, h.early, fun a ha => ?_,
      fun hpositive => ?_⟩
    · rcases hpeer with hpeer | ⟨hpeer, -, hping, hpayload⟩
      · exact h.registered a (hpeer.symm.trans ha)
      · cases hpeer.symm.trans ha
        exact ⟨hip, _, hsent, hping, hpayload, bytes, harrived, rfl⟩
    · rcases hpeer with hpeer | ⟨-, hzero, -⟩
      · exact hpeer.trans (h.budget (Nat.lt_of_lt_of_le hpositive hbudget))
      · exact absurd hzero (Nat.pos_iff_ne_zero.mp hpositive)

theorem Session.Ok.sealed {arrived : List (List UInt8 × SocketAddr)} {header : PacketHeader}
    {payload datagram : List UInt8} {sealer : DatagramCipher} (h : session.Ok aes arrived)
    (hseal : sealDatagram aes session.channel.sealer header payload = (.ok datagram, sealer)) :
    Session.Ok aes arrived { session with
      channel := { session.channel with
        sealer
        sent := ⟨header, payload, datagram⟩ :: session.channel.sent }
      early := if session.udpPeer = none then ⟨header, payload, datagram⟩ :: session.early
        else session.early } := by
  obtain ⟨c, hstarts, hinv⟩ := h.channel
  refine ⟨⟨c, hstarts, DatagramChannel.inv_sent hstarts hinv hseal⟩, fun x hx => ?_, fun a ha => ?_,
    h.budget⟩
  · dsimp only at hx ⊢
    split at hx
    · rcases List.mem_cons.mp hx with rfl | hx
      · exact List.mem_cons_self ..
      · exact List.mem_cons_of_mem _ (h.early x hx)
    · exact List.mem_cons_of_mem _ (h.early x hx)
  · obtain ⟨hip, x, hx, hrest⟩ := h.registered a ha
    exact ⟨hip, x, List.mem_cons_of_mem _ hx, hrest⟩

variable [DecidableEq τ]

theorem Inv.set {socket : List (List UInt8 × SocketAddr)} (h : Inv aes s)
    (hok : session.Ok aes s.arrived) (hsocket : ∀ d ∈ socket, d ∈ s.arrived) :
    Inv aes { s.set t session with socket } := by
  refine ⟨fun u session' hu => ?_, hsocket⟩
  by_cases hut : u = t
  · subst hut
    cases (Function.update_self _ _ _).symm.trans hu
    exact hok
  · exact h.ok u session' ((Function.update_of_ne hut _ _).symm.trans hu)

theorem Inv.step (hlen : ∀ ikm salt info n, (hkdf ikm salt info n).length = n) {label : Label τ}
    (h : Inv aes s) (hideal : Ideal aes s label)
    (hstep : step hkdf aes windows s label = some s') : Inv aes s' := by
  cases label with
  | authenticate t masterKey sessionSalt tcpPeer =>
    simp only [Registration.step] at hstep
    split at hstep
    · rename_i c hnone hderive
      cases hstep
      obtain ⟨hstarts, hreplay⟩ := DatagramChannel.derive_spec hlen hderive
      exact h.set ⟨⟨c, hstarts, DatagramChannel.inv_start hreplay⟩, nofun, nofun, nofun⟩ h.arrived
    · cases hstep
  | «seal» t header payload =>
    obtain ⟨session, hsession, rfl⟩ := Option.map_eq_some_iff.mp hstep
    have hok := h.ok t session hsession
    split
    · rename_i hseal
      exact h.set (hok.sealed hseal) h.arrived
    · rename_i hseal
      obtain ⟨c, hstarts, hinv⟩ := hok.channel
      exact h.set { hok with channel := ⟨c, hstarts, DatagramChannel.inv_seal hinv hseal⟩ } h.arrived
  | arrive bytes source =>
    cases hstep
    refine ⟨fun u session hu => (h.ok u session hu).mono (List.subset_append_left _ _),
      fun d hd => ?_⟩
    rcases List.mem_append.mp hd with hd | hd
    · exact List.mem_append_left _ (h.arrived d hd)
    · exact List.mem_append_right _ hd
  | discover t =>
    simp only [Registration.step] at hstep
    split at hstep
    · rename_i session hsession
      split at hstep
      · rename_i hcan
        cases hstep
        exact h.set { h.ok t session hsession with budget := fun _ => hcan.2.2 } h.arrived
      · cases hstep
    · cases hstep
  | recv t =>
    simp only [Registration.step] at hstep
    split at hstep
    · rename_i session hsession
      have hok := h.ok t session hsession
      split at hstep
      · split at hstep
        · cases hstep
          exact h.set { hok with budget := nofun } h.arrived
        · rename_i bytes source socket hsocket
          cases hstep
          have hmem : ∀ d ∈ (bytes, source) :: socket, d ∈ s.arrived := hsocket ▸ h.arrived
          have hideal' := hideal session hsession (bytes, source) (by simp [hsocket])
          exact h.set (hok.received hideal' (hmem _ (List.mem_cons_self ..)) receive_cases)
            fun d hd => hmem d (List.mem_cons_of_mem _ hd)
      · cases hstep
    · cases hstep
  | reset t =>
    simp only [Registration.step] at hstep
    split at hstep
    · rename_i session hsession
      split at hstep
      · cases hstep
        exact h.set (h.ok t session hsession).next h.arrived
      · cases hstep
    · cases hstep
  | leave t =>
    obtain ⟨session, hsession, rfl⟩ := Option.map_eq_some_iff.mp hstep
    exact h.set { h.ok t session hsession with } h.arrived

theorem step_udpPeer {label : Label τ} {a : SocketAddr} (h : Inv aes s)
    (hstep : step hkdf aes windows s label = some s') (hsession : s.sessions t = some session)
    (ha : session.udpPeer = some a) :
    ∃ session', s'.sessions t = some session' ∧ session'.udpPeer = some a := by
  -- one session is replaced by one that knows what it has known
  have hset : ∀ u session₀ session' socket, s.sessions u = some session₀ →
      (session₀.udpPeer = some a → session'.udpPeer = some a) →
      s' = { s.set u session' with socket } →
      ∃ session', s'.sessions t = some session' ∧ session'.udpPeer = some a := by
    rintro u session₀ session' socket hu hpeer rfl
    by_cases htu : t = u
    · subst htu
      cases hu.symm.trans hsession
      exact ⟨session', Function.update_self _ _ _, hpeer ha⟩
    · exact ⟨session, (Function.update_of_ne htu _ _).trans hsession, ha⟩
  cases label with
  | authenticate u masterKey sessionSalt tcpPeer =>
    simp only [step] at hstep
    split at hstep
    · rename_i c hnone hderive
      cases hstep
      have htu : t ≠ u := by
        rintro rfl
        cases hnone.symm.trans hsession
      exact ⟨session, (Function.update_of_ne htu _ _).trans hsession, ha⟩
    · cases hstep
  | «seal» u header payload =>
    obtain ⟨session₀, hu, hs'⟩ := Option.map_eq_some_iff.mp hstep
    split at hs'
    · refine hset u session₀ _ s.socket hu ?_ hs'.symm
      exact id
    · refine hset u session₀ _ s.socket hu ?_ hs'.symm
      exact id
  | arrive bytes source =>
    cases hstep
    exact ⟨session, hsession, ha⟩
  | discover u =>
    simp only [step] at hstep
    split at hstep
    · rename_i session₀ hu
      split at hstep
      · cases hstep
        exact hset u session₀ { session₀ with budget := maxUdpDiscoveryBurst } s.socket hu id rfl
      · cases hstep
    · cases hstep
  | recv u =>
    simp only [step] at hstep
    split at hstep
    · rename_i session₀ hu
      split at hstep
      · rename_i hcan
        have hnone := (h.ok u session₀ hu).budget hcan.2
        split at hstep
        · cases hstep
          exact hset u session₀ { session₀ with budget := 0 } s.socket hu id rfl
        · cases hstep
          refine hset u session₀ _ _ hu (fun hknown => ?_) rfl
          cases hknown.symm.trans hnone
      · cases hstep
    · cases hstep
  | reset u =>
    simp only [step] at hstep
    split at hstep
    · rename_i session₀ hu
      split at hstep
      · cases hstep
        exact hset u session₀ session₀.next s.socket hu id rfl
      · cases hstep
    · cases hstep
  | leave u =>
    obtain ⟨session₀, hu, rfl⟩ := Option.map_eq_some_iff.mp hstep
    exact hset u session₀ { session₀ with live := false } s.socket hu id rfl

/-- What a session takes that the client of a session has sealed early, that session opens. -/
theorem recv_delivers (hcorrect : ∀ key, (aes key).Correct) (h : Inv aes s)
    (hapart : Apart s (.recv t)) (hstep : step hkdf aes windows s (.recv t) = some s')
    {rest : List (List UInt8 × SocketAddr)} (hsocket : s.socket = (bytes, source) :: rest) {u : τ}
    (hsession : s.sessions u = some session) (hlive : session.live = true) {x : Transfer}
    (hx : x ∈ session.early) (hbytes : x.datagram = bytes) :
    ∃ session', s'.sessions u = some session' ∧ x ∈ session'.channel.delivered := by
  simp only [step] at hstep
  split at hstep
  swap
  · cases hstep
  rename_i session₀ ht
  split at hstep
  swap
  · cases hstep
  rename_i hcan
  rw [hsocket] at hstep
  cases hstep
  have hok := h.ok u session hsession
  by_cases hdelivered : x ∈ session.channel.delivered
  · -- it was opened before, and what is delivered stays
    by_cases hut : u = t
    · subst hut
      cases hsession.symm.trans ht
      exact ⟨_, Function.update_self _ _ _, receive_cases.delivered hdelivered⟩
    · exact ⟨session, (Function.update_of_ne hut _ _).trans hsession, hdelivered⟩
  · obtain ⟨rfl, hip, hsize, hwindow⟩ := hapart (bytes, source) (by simp [hsocket]) u session
      hsession hlive x hx hbytes hdelivered
    cases hsession.symm.trans ht
    refine ⟨_, Function.update_self _ _ _, ?_⟩
    obtain ⟨c, hstarts, hinv⟩ := hok.channel
    obtain ⟨opener, hopen⟩ := hinv.openDatagram_sent hstarts (hcorrect _) (hok.early x hx)
      hdelivered hwindow
    rw [hbytes] at hopen
    have hmem := receive_opens windows hip (hok.budget hcan.2) hsize hopen
    obtain ⟨header, payload, datagram⟩ := x
    cases hbytes
    exact hmem

/-- **Registration reaches its session**, as long as the sessions take the datagrams of their own
clients only.  A datagram that the client of a session has sealed before the session knew its
address is opened by that session when it is received; an address that is known stays; and it is
the source, on the peer's IP address, of an empty Ping that the client has sealed. -/
theorem registration_reaches (hlen : ∀ ikm salt info n, (hkdf ikm salt info n).length = n)
    (hcorrect : ∀ key, (aes key).Correct) {labels : List (Label τ)}
    (hideal : Machine.Along (step hkdf aes windows) (Ideal aes) State.init labels)
    (hapart : Machine.Along (step hkdf aes windows) Apart State.init labels)
    (hrun : Machine.run (step hkdf aes windows) State.init labels = some s) :
    (∀ before t after s₀ s₁, labels = before ++ .recv t :: after →
      Machine.run (step hkdf aes windows) State.init before = some s₀ →
        step hkdf aes windows s₀ (.recv t) = some s₁ →
          ∀ bytes source rest, s₀.socket = (bytes, source) :: rest →
            ∀ u session, s₀.sessions u = some session → session.live = true →
              ∀ x ∈ session.early, x.datagram = bytes →
                ∃ session', s₁.sessions u = some session' ∧ x ∈ session'.channel.delivered) ∧
    (∀ before after s₁, labels = before ++ after →
      Machine.run (step hkdf aes windows) State.init before = some s₁ →
        ∀ t session a, s₁.sessions t = some session → session.udpPeer = some a →
          ∃ session', s.sessions t = some session' ∧ session'.udpPeer = some a) ∧
    ∀ t session a, s.sessions t = some session → session.udpPeer = some a →
      a.ip = session.tcpPeer.ip ∧ ∃ x ∈ session.channel.sent, x.header.packetType = .ping ∧
        x.payload = [] ∧ ∃ bytes, (bytes, a) ∈ s.arrived ∧ bytes.take bufferSize = x.datagram := by
  have hstart : Inv aes (State.init : State τ) := ⟨nofun, nofun⟩
  have hinv : ∀ {bs u}, Machine.Along (step hkdf aes windows) (Ideal aes) State.init bs →
      Machine.run (step hkdf aes windows) State.init bs = some u → Inv aes u :=
    fun hbs hu => Machine.run_inv_along (fun h hc hstep => Inv.step hlen h hc hstep) hstart hbs hu
  refine ⟨fun before t after s₀ s₁ heq hbefore hstep bytes source rest hsocket u session hsession
      hlive x hx hbytes => ?_, fun before after s₁ heq hbefore t session a hsession ha => ?_,
    fun t session a hsession ha => ((hinv hideal hrun).ok t session hsession).registered a ha⟩
  · subst heq
    exact recv_delivers hcorrect (hinv (hideal.append hbefore).1 hbefore)
      (hapart.append hbefore).2.1 hstep hsocket hsession hlive hx hbytes
  · subst heq
    obtain ⟨u, hu, hafter⟩ := Machine.run_append_eq_some.mp hrun
    cases hu.symm.trans hbefore
    obtain ⟨hideal₁, hideal₂⟩ := hideal.append hbefore
    have hkeep := Machine.run_inv_along (I := fun s => Inv aes s ∧
      ∃ session', s.sessions t = some session' ∧ session'.udpPeer = some a)
      (fun ⟨h, session', hsession', ha'⟩ hc hstep =>
        ⟨Inv.step hlen h hc hstep, step_udpPeer h hstep hsession' ha'⟩)
      ⟨hinv hideal₁ hbefore, session, hsession, ha⟩ hideal₂ hafter
    exact hkeep.2

end Run

/-! ### One session with a known exchange -/

def peerAddr (last : UInt8) : SocketAddr := ⟨[192, 168, 1, last], 50000⟩

/-- The peer authenticates, what it has sealed arrives, and its session takes it. -/
def knownLabels : List (Label Unit) :=
  [.authenticate () DatagramChannel.knownMasterKey DatagramChannel.knownSalt (peerAddr 7),
    .seal () DatagramChannel.knownHeader (asciiBytes "hello world"),
    .arrive DatagramChannel.knownTransfer.datagram (peerAddr 7), .discover (), .recv ()]

theorem registration_reaches_known : ∃ s, Machine.run
    (step DatagramChannel.knownHkdf DatagramChannel.knownAes false) State.init knownLabels =
      some s ∧ ∀ t session a, s.sessions t = some session → session.udpPeer = some a →
        a.ip = session.tcpPeer.ip ∧ ∃ x ∈ session.channel.sent, x.header.packetType = .ping ∧
          x.payload = [] ∧
            ∃ bytes, (bytes, a) ∈ s.arrived ∧ bytes.take bufferSize = x.datagram := by
  have hrun : (Machine.run (step DatagramChannel.knownHkdf DatagramChannel.knownAes false)
      State.init knownLabels).isSome = true := by decide
  obtain ⟨s, hs⟩ := Option.isSome_iff_exists.mp hrun
  refine ⟨s, hs, (registration_reaches DatagramChannel.knownHkdf_length
    DatagramChannel.knownAes_correct ?_ ?_ hs).2.2⟩
  · refine ⟨trivial, fun s₁ h₁ => ⟨trivial, fun s₂ h₂ => ⟨trivial, fun s₃ h₃ => ⟨trivial,
      fun s₄ h₄ => ⟨?_, fun _ _ => trivial⟩⟩⟩⟩⟩
    cases h₁
    cases h₂
    cases h₃
    cases h₄
    rintro session ⟨⟩ d ⟨⟩
    exact DatagramChannel.ideal_afterSeal _
  · refine ⟨trivial, fun s₁ h₁ => ⟨trivial, fun s₂ h₂ => ⟨trivial, fun s₃ h₃ => ⟨trivial,
      fun s₄ h₄ => ⟨?_, fun _ _ => trivial⟩⟩⟩⟩⟩
    cases h₁
    cases h₂
    cases h₃
    cases h₄
    rintro d ⟨⟩ u session ⟨⟩ - x - - -
    exact ⟨rfl, rfl, by decide, nofun⟩

/-! ### Two sessions -/

/-- A hash that copies its input. -/
def copyHkdf : Hkdf := fun ikm _ _ n => (ikm ++ List.replicate n 0).take n

/-- A cipher whose tag is the key. -/
def keyTagAes (key : List UInt8) : Aead where
  encrypt _ _ plaintext := some (plaintext, (key ++ List.replicate tagSize 0).take tagSize)
  decrypt _ _ message :=
    if message.drop (message.length - tagSize) = (key ++ List.replicate tagSize 0).take tagSize then
      some (message.take (message.length - tagSize))
    else none

def pingHeader : PacketHeader := ⟨.ping, 0, 100, 0⟩

/-- The registration of the second client. -/
def registration : Transfer :=
  ⟨pingHeader, [], pingHeader.toBytes ++ [2, 2, 2, 2, 0, 0, 0, 0, 0, 0, 0, 1] ++
    List.replicate tagSize 2⟩

/-- Two clients authenticate, and the registration of the second arrives. -/
def twoClients : List (Label Bool) :=
  [.authenticate false (List.replicate 32 1) (List.replicate 16 0) (peerAddr 1),
    .authenticate true (List.replicate 32 2) (List.replicate 16 0) (peerAddr 2),
    .seal true pingHeader [], .arrive registration.datagram (peerAddr 2), .discover false]

/-- **The first session discards the registration of the second.** -/
theorem registration_eaten : ∃ s₀ s₁ session session', Machine.run (step copyHkdf keyTagAes false)
      State.init twoClients = some s₀ ∧
    step copyHkdf keyTagAes false s₀ (.recv false) = some s₁ ∧
    s₀.socket = [(registration.datagram, peerAddr 2)] ∧ s₀.sessions true = some session ∧
    session.live = true ∧ session.udpPeer = none ∧ session.tcpPeer = peerAddr 2 ∧
    registration ∈ session.early ∧ s₁.sessions true = some session' ∧
    registration ∉ session'.channel.delivered ∧ s₁.socket = [] := by
  have hrun : ((Machine.run (step copyHkdf keyTagAes false) State.init twoClients).any fun s₀ =>
      (step copyHkdf keyTagAes false s₀ (.recv false)).any fun s₁ =>
        (s₀.sessions true).any fun session => (s₁.sessions true).any fun session' =>
          decide (s₀.socket = [(registration.datagram, peerAddr 2)] ∧ session.live = true ∧
            session.udpPeer = none ∧ session.tcpPeer = peerAddr 2 ∧
            registration ∈ session.early ∧ registration ∉ session'.channel.delivered ∧
            s₁.socket = [])) = true := by
    decide
  obtain ⟨s₀, hs₀, hrun⟩ := (Option.any_eq_true _ _).mp hrun
  obtain ⟨s₁, hs₁, hrun⟩ := (Option.any_eq_true _ _).mp hrun
  obtain ⟨session, hsession, hrun⟩ := (Option.any_eq_true _ _).mp hrun
  obtain ⟨session', hsession', hrun⟩ := (Option.any_eq_true _ _).mp hrun
  obtain ⟨hsocket, hlive, hpeer, htcp, hearly, hdelivered, hempty⟩ := of_decide_eq_true hrun
  exact ⟨s₀, s₁, session, session', hs₀, hs₁, hsocket, hsession, hlive, hpeer, htcp, hearly,
    hsession', hdelivered, hempty⟩

end MahoRD.Registration

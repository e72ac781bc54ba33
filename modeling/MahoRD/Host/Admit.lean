/-
MahoRD/Host/Admit.lean

How a peer is admitted: the request for a pairing, which a user approves, and
the handshake, after which it is authenticated.
-/
import MahoRD.Host.Housekeeping

namespace MahoRD.Host

open Act

/-! ### Pairing -/

/-- What the consent responder answers, if it is in time. -/
def askConsent (c : Connection) (t : Turn) : HostAct (Option PairingTrust) := do
  when (c.pairingDeadline = none) (throw (.fail .consentTimeout))
  when (c.config.consentSender ∧ ¬ t.pairing.consentSent) (throw (.fail .consentUnavailable))
  let approved ← required (.fail .consentTimeout) t.pairing.approval
  when (c.admissionDeadline ≤ t.pairing.approvedAt
      ∨ ¬ isPairingActive c t.pairing.activeAt t.pairing.lockoutAllowsThen)
    (throw (.fail .consentTimeout))
  return approved

def grantPairing (c : Connection) (t : Turn) (request : PairingRequest) (trust : PairingTrust) :
    HostAct Unit := do
  let _ ← ofExcept codecExit trust.encode
  when (trust ≠ .guestOnce ∧ ¬ Guests.validTrust trust t.pairing.unixMs)
    (throw (.fail .consentTimeout))
  modify fun s => { s with sessionTrust := trust }
  let record : PairingRecord := ⟨t.pairing.id, request.name, t.pairing.key⟩
  send t (.pairingGrant ⟨record.id, c.config.hostName, record.key.bytes⟩)
  setAdmission fun _ =>
    { state := .pairingGranted
      grantedPairingId := some record.id
      provisional := some record }

def pairingRequest (c : Connection) (t : Turn) (payload : List UInt8) : HostAct Unit := do
  when (c.negotiatedIdentity ≠ bootstrapIdentity
      ∨ ¬ isPairingActive c t.pairing.now t.pairing.lockoutAllows) do
    sendPairingReject t .pairingDisabled
    throw .next
  let request ← ofExcept codecExit (PairingRequest.decode payload)
  match ← askConsent c t with
  | none =>
    sendPairingReject t .deniedByHost
    throw .leave
  | some trust => grantPairing c t request trust

/-! ### Handshake -/

/-- The key record of the handshake: the one just granted, or a stored one, which
brings its trust and permissions. -/
def knownRecord (t : Turn) (handshake : Handshake) : HostAct PairingRecord := do
  let s ← get
  match s.admission.provisional with
  | some record => return record
  | none =>
    let found ← onStore (PairingStore.load t.handshake.load handshake.pairingId)
    let record ← required (.fail .unknownPairing) found
    let authorization ← onStore (PairingStore.authorization t.handshake.authorization record.id)
    let (sessionTrust, grantPermissions) ←
      ofExcept .fail (Authorization.adopt s.grantPermissions t.handshake.unixMs authorization)
    modify fun s => { s with sessionTrust, grantPermissions }
    return record

/-- The identity of the TLS connection and the pairing of the handshake are one. -/
def checkIdentity (c : Connection) (granted : Option String) (pairingId : String) :
    Except SessionError Unit :=
  match stripPrefix pairingIdentityPrefix c.negotiatedIdentity with
  | some identity => if identity ≠ pairingId then .error .identityMismatch else .ok ()
  | none =>
    if c.negotiatedIdentity = bootstrapIdentity then
      match granted with
      | none => .error .preAuth
      | some expected => if expected ≠ pairingId then .error .identityMismatch else .ok ()
    else .error .identityMismatch

/-- The capabilities of the peer, and the ciphers. -/
def negotiate (c : Connection) (t : Turn) (handshake : Handshake) : HostAct Unit := do
  when (handshake.version ≠ protocolVersion)
    (throw (.fail (.codec (.unsupportedVersion handshake.version))))
  let caps := handshake.capabilities
  modify fun s => { s with
    clipboardSync := c.hostCaps.contains .textClipboardSync && caps.contains .textClipboardSync }
  when (¬ caps.contains .authenticatedUdpRegistration)
    (throw (.fail .missingAuthenticatedRegistration))
  attempt .fail t.handshake.derive
  modify fun s => { s with c2hCipher := true, h2cCipher := true, peerCaps := caps }
  attempt (fun e => .fail (.io e)) t.handshake.writeTimeout
  modify fun s => { s with peerHasStreamOptions := caps.contains .streamOptions }

/-- The first pipeline, as the host is configured. -/
def startMedia (c : Connection) (t : Turn) : HostAct Unit := do
  attempt .fail t.handshake.start
  setMedia fun m => { m with pipeline := true, stream := initialStream c.config }
  modify fun s => { s with mediaReceiver := true }

def handshakeAck (c : Connection) : Handshake where
  name := c.config.hostName
  width := (min c.config.display.logicalWidth 65535).toUInt16
  height := (min c.config.display.logicalHeight 65535).toUInt16
  scale := c.config.display.scaleFactor
  version := protocolVersion
  capabilities := .streamConfiguration ||| .authenticatedUdpRegistration ||| .streamOptions
    ||| c.hostCaps
  pairingId := ""
  sessionSalt := List.replicate sessionSaltSize 0

/-- A peer that was just granted its pairing says what trust it asks for; what it
asks for is not looked at. -/
def awaitTrustRequest (t : Turn) : HostAct Unit := do
  let read ← ofExcept (fun e => .fail (.tls e)) t.handshake.nested
  let packet ← required (.fail .consentTimeout) read
  let (header, payload) ← ofExcept .fail (splitPacket packet)
  when (header.packetType ≠ .control) (throw (.fail .preAuth))
  match ← ofExcept codecExit (ControlMessage.decode payload) with
  | .pairingTrustRequest _ => pure ()
  | _ => throw (.fail .preAuth)

def grantTrust (t : Turn) (fresh : Bool) : HostAct Unit := do
  let s ← get
  when (s.peerCaps.contains .pairingTrust) do
    when fresh (awaitTrustRequest t)
    sendTcpControl t (.pairingTrustGrant ⟨s.sessionTrust⟩)

/-- A new pairing is stored, unless it is for this session only. -/
def storePairing (t : Turn) (fresh : Bool) (record : PairingRecord) : HostAct Unit := do
  let s ← get
  when (fresh ∧ s.sessionTrust ≠ .guestOnce) do
    when (¬ Guests.validTrust s.sessionTrust t.handshake.unixMsThen) do
      sendSessionEnd t .guestExpired
      throw .leave
    onStore (PairingStore.setAuthorization t.handshake.setAuthorization record.id s.sessionTrust
      (some s.grantPermissions))
    onStore (PairingStore.save t.handshake.save record)

/-- The peer is authenticated. -/
def join (c : Connection) (t : Turn) (record : PairingRecord) : HostAct Unit := do
  setAdmission fun a => { a with provisional := none }
  let s ← get
  let effective := Guests.intersect s.grantPermissions
    (permissionCeiling c t.handshake.policy s.clipboardSync)
  modify fun s => { s with effectivePermissions := effective }
  sendPermissions t effective
  modify fun s => { s with
    audioAllowed := effective.audio
    activeGuest := some ⟨t.handshake.guestId, record.id, record.name, s.sessionTrust⟩ }
  setAdmission fun a => { a with state := .authenticated }

/-- What follows once the peer is authenticated. -/
def welcome (c : Connection) (t : Turn) : HostAct Unit := do
  let s ← get
  when (s.peerCaps.contains .pairingTrust) (startMedia c t)
  when s.peerHasStreamOptions do
    modify fun s => { s with lastSentPolicy := policyOf s.effectivePermissions }
    sendTcpControl t (.hostDisplayList ⟨t.handshake.displays⟩)
  modify fun s => { s with
    lastPong := t.handshake.now, nextPing := t.handshake.now + heartbeatInterval }

/-- The handshake up to the answer. -/
def acknowledge (c : Connection) (t : Turn) : HostAct Unit := do
  let s ← get
  when (¬ s.peerCaps.contains .pairingTrust) (startMedia c t)
  send t (.handshakeAck (handshakeAck c))

def handshake (c : Connection) (t : Turn) (payload : List UInt8) : HostAct Unit := do
  let s ← get
  when (s.admission.state = .authenticated) (throw (.fail .alreadyAuthenticated))
  let handshake ← ofExcept codecExit (Handshake.decode payload)
  let fresh := s.admission.provisional.isSome
  let record ← knownRecord t handshake
  ofExcept .fail (checkIdentity c s.admission.grantedPairingId handshake.pairingId)
  negotiate c t handshake
  acknowledge c t
  grantTrust t fresh
  storePairing t fresh record
  join c t record
  welcome c t

/-! ### What admitting does -/

theorem askConsent_calm (c : Connection) (t : Turn) : Calm (askConsent c t) := by
  refine Keeps.seq (Keeps.when (Keeps.raise trivial)) fun _ => ?_
  refine Keeps.seq (Keeps.when (Keeps.raise trivial)) fun _ => ?_
  refine Keeps.seq (Keeps.required trivial) fun approved => ?_
  exact Keeps.seq (Keeps.when (Keeps.raise trivial)) fun _ => Keeps.ret approved

/-- In this turn a pairing was requested, and approved before the admission
deadline while the pairing was active. -/
def Turn.Approves (t : Turn) (c : Connection) : Prop :=
  (∃ trust, t.pairing.approval = some (some trust)) ∧
    t.pairing.approvedAt < c.admissionDeadline ∧
      isPairingActive c t.pairing.activeAt t.pairing.lockoutAllowsThen = true

variable {s s' : Session} {id : String}

theorem approves_of_askConsent {c : Connection} {t : Turn} {trust : PairingTrust}
    (h : (askConsent c t).exec s = (.ok (some trust), s')) : t.Approves c := by
  obtain ⟨-, s₁, -, h⟩ := exec_seq_eq_ok.mp h
  obtain ⟨-, s₂, -, h⟩ := exec_seq_eq_ok.mp h
  obtain ⟨approved, s₃, happroved, h⟩ := exec_seq_eq_ok.mp h
  obtain ⟨_, s₄, htime, h⟩ := exec_seq_eq_ok.mp h
  obtain ⟨happroval, -⟩ := exec_required_eq_ok.mp happroved
  obtain ⟨hin, -⟩ := exec_guard_eq_ok.mp htime
  cases h
  push Not at hin
  exact ⟨⟨trust, happroval⟩, hin.1, hin.2⟩

/-- What is sent to the peer when the pairing of the turn is granted. -/
def grantOf (c : Connection) (t : Turn) : PairingGrant :=
  ⟨t.pairing.id, c.config.hostName, t.pairing.key.bytes⟩

/-- The pairing of this turn is granted. -/
structure Granted (c : Connection) (t : Turn) (s : Session) (o : Except Exit Unit × Session) :
    Prop where
  admission : ∃ record, o.2.admission = ⟨.pairingGranted, some t.pairing.id, some record⟩
  packets : o.2.packets = s.packets
  grants : ∃ stream, o.2.grants = s.grants ++ [(stream, .pairingGrant (grantOf c t))]

theorem grantPairing_cases (c : Connection) (t : Turn) (request : PairingRequest)
    (trust : PairingTrust) (s : Session) :
    Stopped (Same Session.entry) Exit.Ends s ((grantPairing c t request trust).exec s) ∨
      Granted c t s ((grantPairing c t request trust).exec s) := by
  rw [grantPairing]
  refine Keeps.past (Granted c t s) (Keeps.ofExcept fun _ => trivial) rfl fun _ s₁ _ hs₁ => ?_
  refine Keeps.past (Granted c t s) (Keeps.when (Keeps.raise trivial)) hs₁ fun _ s₂ _ hs₂ => ?_
  refine Keeps.past (Granted c t s) (Keeps.update fun _ => rfl) hs₂ fun _ s₃ _ hs₃ => ?_
  rw [exec_bind]
  rcases exec_send t (.pairingGrant ⟨t.pairing.id, c.config.hostName, t.pairing.key.bytes⟩) s₃ with
    ⟨e, writes, h⟩ | h
  · rw [h]
    exact Or.inl ⟨hs₃, .fail e, trivial, rfl⟩
  · rw [h]
    obtain ⟨-, hpackets, hgrants⟩ := Session.entry_eq_iff.mp hs₃
    refine Or.inr ⟨⟨_, rfl⟩, hpackets, s₃.media.stream, ?_⟩
    rw [← hgrants]
    show List.filter _ (s₃.sent ++ [_]) = _
    simp [Sent.isGrant, Session.grants, grantOf]

theorem pairingRequest_cases (c : Connection) (t : Turn) (payload : List UInt8) (s : Session) :
    Stopped (Same Session.entry) Any s ((pairingRequest c t payload).exec s) ∨
      Granted c t s ((pairingRequest c t payload).exec s) ∧
        c.negotiatedIdentity = bootstrapIdentity ∧ t.Approves c ∧
          ∃ request, PairingRequest.decode payload = .ok request := by
  rw [pairingRequest]
  set Ψ : Except Exit Unit × Session → Prop := fun o =>
    Granted c t s o ∧ c.negotiatedIdentity = bootstrapIdentity ∧ t.Approves c ∧
      ∃ request, PairingRequest.decode payload = .ok request
  have hsend : ∀ {p : Sent} {e : Exit}, p.isGrant = false →
      Keeps (Same Session.entry) Any (send t p >>= fun _ => throw e : HostAct Unit) := by
    intro p e h
    exact Keeps.seq (Keeps.mono (send_entry t h) (fun h => h) fun _ => trivial) fun _ => Keeps.raise trivial
  refine Keeps.past Ψ (Keeps.when (hsend rfl)) rfl fun _ s₁ hguard hs₁ => ?_
  obtain ⟨hactive, -⟩ := exec_refuse_eq_ok.mp hguard
  refine Keeps.past Ψ (Keeps.ofExcept fun _ => trivial) hs₁ fun request s₂ hok hs₂ => ?_
  obtain ⟨hdecode, -⟩ := exec_ofExcept_eq_ok.mp hok
  refine Keeps.past Ψ (Keeps.mono (entry_of_quiet (askConsent_calm c t).quiet) (fun h => h)
    fun _ => trivial) hs₂ fun approved s₃ hconsent hs₃ => ?_
  rcases approved with - | trust
  · -- denied: the rejection ends the session
    left
    obtain ⟨hR, e, -, he⟩ := Keeps.stopped (s := s₃) (hsend (p := .pairingReject ⟨.deniedByHost⟩)
      (e := .leave) rfl) fun a s' h => by
        obtain ⟨_, _, _, h⟩ := exec_seq_eq_ok.mp h
        cases h
    exact ⟨hR.trans hs₃, e, trivial, he⟩
  · rcases grantPairing_cases c t request trust s₃ with ⟨hR, e, -, he⟩ | hgrant
    · exact Or.inl ⟨hR.trans hs₃, e, trivial, he⟩
    · obtain ⟨-, hpackets, hgrants⟩ := Session.entry_eq_iff.mp hs₃
      push Not at hactive
      exact Or.inr ⟨⟨hgrant.admission, hgrant.packets.trans hpackets,
        hgrants ▸ hgrant.grants⟩, hactive.1, approves_of_askConsent hconsent, request, hdecode⟩

/-- The store has a key record of that id, and the trust it answers for it is
valid. -/
def Admits (d : Disk) (id : String) (now : UInt64) : Prop :=
  d.HasKey id ∧ ∃ trust permissions,
    PairingStore.answer (d.grants.lookup id) = .ok (trust, permissions) ∧
      Guests.validTrust trust now = true

theorem exec_onStore_eq_ok {α : Type} {x : StoreAct α} {a : α} :
    (onStore x).exec s = (.ok a, s') ↔
      (x.exec s.disk).1 = .ok a ∧ s' = { s with disk := (x.exec s.disk).2 } := by
  simp [onStore, exec_bind, exec_ofExcept_eq_ok]

theorem hasKey_of_load {files : Files} {d : Disk} {record : PairingRecord}
    (h : ((PairingStore.load files id).exec d).1 = .ok (some record)) :
    d.HasKey id ∧ record.id = id := by
  simp only [PairingStore.exec_load] at h
  split at h
  · cases h
  · have hfind : d.records.find? (fun record => record.id = id) = some record := Except.ok.inj h
    have hid : record.id = id := by simpa using List.find?_some hfind
    exact ⟨⟨record, List.mem_of_find?_eq_some hfind, hid⟩, hid⟩

theorem answer_of_authorization {files : Files} {d : Disk}
    {a : PairingTrust × Option GuestPermissions}
    (h : ((PairingStore.authorization files id).exec d).1 = .ok a) :
    PairingStore.answer (d.grants.lookup id) = .ok a := by
  simp only [PairingStore.exec_authorization] at h
  split at h
  · cases h
  · exact h

theorem validTrust_of_adopt {p : GuestPermissions} {now : UInt64}
    {a : PairingTrust × Option GuestPermissions} {r : PairingTrust × GuestPermissions}
    (h : Authorization.adopt p now a = .ok r) : Guests.validTrust a.1 now = true := by
  rw [Authorization.adopt] at h
  split at h
  · assumption
  · cases h

theorem admits_of_knownRecord {t : Turn} {handshake : Handshake}
    {record : PairingRecord} (hfresh : s.admission.provisional = none)
    (h : (knownRecord t handshake).exec s = (.ok record, s')) :
    Admits s.disk handshake.pairingId t.handshake.unixMs := by
  rw [knownRecord, exec_bind] at h
  simp only [exec_get, hfresh] at h
  obtain ⟨found, s₁, hload, h⟩ := exec_seq_eq_ok.mp h
  obtain ⟨record', s₂, hfound, h⟩ := exec_seq_eq_ok.mp h
  obtain ⟨authorization, s₃, hauthorization, h⟩ := exec_seq_eq_ok.mp h
  obtain ⟨adopted, s₄, hadopt, -⟩ := exec_seq_eq_ok.mp h
  obtain ⟨hload, hs₁⟩ := exec_onStore_eq_ok.mp hload
  obtain ⟨rfl, hs₂⟩ := exec_required_eq_ok.mp hfound
  obtain ⟨hauthorization, -⟩ := exec_onStore_eq_ok.mp hauthorization
  obtain ⟨hadopt, -⟩ := exec_ofExcept_eq_ok.mp hadopt
  -- the first read has left the files alone
  have hdisk : s₂.disk = s.disk := by
    rw [hs₂, hs₁]
    show ((PairingStore.load _ _).exec s.disk).2 = s.disk
    rw [PairingStore.exec_load]
  obtain ⟨hkey, hid⟩ := hasKey_of_load hload
  rw [hdisk, hid] at hauthorization
  exact ⟨hkey, authorization.1, authorization.2, answer_of_authorization hauthorization,
    validTrust_of_adopt hadopt⟩

theorem eq_append_of_stripPrefix {start text rest : String}
    (h : stripPrefix start text = some rest) : text = start ++ rest := by
  rw [stripPrefix] at h
  split at h
  next hstart =>
    obtain ⟨l, hl⟩ := hstart
    cases h
    apply String.toList_inj.mp
    rw [String.toList_append, String.toList_ofList, ← hl, ← String.length_toList,
      List.drop_left]
  · cases h

theorem checkIdentity_eq_ok {c : Connection} {granted : Option String}
    (h : checkIdentity c granted id = .ok ()) :
    c.negotiatedIdentity = pairingIdentityPrefix ++ id ∨
      c.negotiatedIdentity = bootstrapIdentity ∧ granted = some id := by
  simp only [checkIdentity] at h
  split at h
  next identity hprefixed =>
    split at h
    · cases h
    next heq =>
      push Not at heq
      exact Or.inl (heq ▸ eq_append_of_stripPrefix hprefixed)
  · split at h
    next hbootstrap =>
      split at h
      · cases h
      · split at h
        · cases h
        next heq =>
          push Not at heq
          exact Or.inr ⟨hbootstrap, by rw [heq]⟩
    · cases h

/-! ### The steps of a handshake -/

theorem knownRecord_view (t : Turn) (handshake : Handshake) :
    Keeps (Same Session.view) Exit.Ends (knownRecord t handshake) := by
  refine Keeps.seq Keeps.read fun s => ?_
  split
  · exact Keeps.ret _
  · refine Keeps.seq (onStore_view _) fun found => ?_
    refine Keeps.seq (Keeps.required trivial) fun record => ?_
    refine Keeps.seq (onStore_view _) fun authorization => ?_
    refine Keeps.seq (Keeps.ofExcept fun _ => trivial) fun adopted => ?_
    exact Keeps.seq (Keeps.update fun _ => rfl) fun _ => Keeps.ret record

theorem negotiate_quiet (c : Connection) (t : Turn) (handshake : Handshake) :
    Quiet (negotiate c t handshake) := by
  refine Keeps.seq (Keeps.when (Keeps.raise trivial)) fun _ => ?_
  refine Keeps.seq (Keeps.update fun _ => rfl) fun _ => ?_
  refine Keeps.seq (Keeps.when (Keeps.raise trivial)) fun _ => ?_
  refine Keeps.seq (Keeps.attempt fun _ => trivial) fun _ => ?_
  refine Keeps.seq (Keeps.update fun _ => rfl) fun _ => ?_
  exact Keeps.seq (Keeps.attempt fun _ => trivial) fun _ => Keeps.update fun _ => rfl

theorem startMedia_entry (c : Connection) (t : Turn) :
    Keeps (Same Session.entry) Exit.Ends (startMedia c t) := by
  refine Keeps.seq (Keeps.attempt fun _ => trivial) fun _ => ?_
  exact Keeps.seq (Keeps.update fun _ => rfl) fun _ => Keeps.update fun _ => rfl

theorem acknowledge_entry (c : Connection) (t : Turn) :
    Keeps (Same Session.entry) Exit.Ends (acknowledge c t) := by
  refine Keeps.seq Keeps.read fun s => ?_
  exact Keeps.seq (Keeps.when (startMedia_entry c t)) fun _ => send_entry t rfl

theorem awaitTrustRequest_calm (t : Turn) : Calm (awaitTrustRequest t) := by
  refine Keeps.seq (Keeps.ofExcept fun _ => trivial) fun read => ?_
  refine Keeps.seq (Keeps.required trivial) fun packet => ?_
  refine Keeps.seq (Keeps.ofExcept fun _ => trivial) fun header => ?_
  refine Keeps.seq (Keeps.when (Keeps.raise trivial)) fun _ => ?_
  refine Keeps.seq (Keeps.ofExcept fun _ => trivial) fun message => ?_
  split
  · exact Keeps.ret ()
  · exact Keeps.raise trivial

theorem grantTrust_calm (t : Turn) (fresh : Bool) : Calm (grantTrust t fresh) := by
  refine Keeps.seq Keeps.read fun s => ?_
  apply Keeps.when
  exact Keeps.seq (Keeps.when (awaitTrustRequest_calm t)) fun _ =>
    (sendTcpControl_still t rfl rfl).calm

theorem storePairing_view (t : Turn) (fresh : Bool) (record : PairingRecord) :
    Keeps (Same Session.view) Exit.Ends (storePairing t fresh record) := by
  refine Keeps.seq Keeps.read fun s => ?_
  apply Keeps.when
  refine Keeps.seq (Keeps.when ?_) fun _ => ?_
  · exact Keeps.seq (view_of_quiet (sendSessionEnd_still t _).quiet) fun _ => Keeps.raise trivial
  · exact Keeps.seq (onStore_view _) fun _ => onStore_view _

theorem welcome_entry (c : Connection) (t : Turn) :
    Keeps (Same Session.entry) Exit.Ends (welcome c t) := by
  refine Keeps.seq Keeps.read fun s => ?_
  refine Keeps.seq (Keeps.when (startMedia_entry c t)) fun _ => ?_
  refine Keeps.seq (Keeps.when ?_) fun _ => Keeps.update fun _ => rfl
  exact Keeps.seq (Keeps.update fun _ => rfl) fun _ => sendTcpControl_entry t _

/-- What a handshake that comes to nothing leaves alone. -/
def Session.ledger (s : Session) : SessionState × List PacketEvent × List (Stream × Sent) :=
  (s.admission.state, s.packets, s.grants)

theorem Session.ledger_eq_iff : s'.ledger = s.ledger ↔
    s'.admission.state = s.admission.state ∧ s'.packets = s.packets ∧ s'.grants = s.grants := by
  simp [Session.ledger]

theorem Session.ledger_of_entry (h : s'.entry = s.entry) :
    s'.ledger = s.ledger := by
  obtain ⟨hadmission, hpackets, hgrants⟩ := Session.entry_eq_iff.mp h
  exact Session.ledger_eq_iff.mpr ⟨congrArg Admission.state hadmission, hpackets, hgrants⟩

/-- The peer is authenticated. -/
structure Joined (s : Session) (o : Except Exit Unit × Session) : Prop where
  admission : o.2.admission = { s.admission with state := .authenticated, provisional := none }
  packets : o.2.packets = s.packets
  grants : o.2.grants = s.grants

theorem join_cases (c : Connection) (t : Turn) (record : PairingRecord) (s : Session) :
    Stopped (Same Session.ledger) Exit.Ends s ((join c t record).exec s) ∨
      ∃ s', (join c t record).exec s = (.ok (), s') ∧ Joined s (.ok (), s') := by
  simp only [join, setAdmission, exec_bind, exec_modify, exec_get]
  -- from here on the permissions are sent
  generalize hs₂ : ({ s with admission := _, effectivePermissions := _ } : Session) = s₂
  have hledger : s₂.ledger = s.ledger := by rw [← hs₂]; rfl
  have hprovisional : s₂.admission = { s.admission with provisional := none } := by rw [← hs₂]
  generalize Guests.intersect _ _ = effective
  obtain ⟨hR, hX⟩ := entry_of_quiet (sendPermissions_still t effective).quiet s₂
  obtain ⟨hadmission, hpackets, hgrants⟩ := Session.entry_eq_iff.mp hR
  obtain ⟨hstate₂, hpackets₂, hgrants₂⟩ := Session.ledger_eq_iff.mp hledger
  rcases hsend : (sendPermissions t effective).exec s₂ with ⟨e | u, s₃⟩
  · rw [hsend] at hadmission hpackets hgrants hX
    refine Or.inl ⟨?_, e, hX e rfl, rfl⟩
    exact Session.ledger_eq_iff.mpr ⟨(congrArg Admission.state hadmission).trans hstate₂,
      hpackets.trans hpackets₂, hgrants.trans hgrants₂⟩
  · rw [hsend] at hadmission hpackets hgrants
    refine Or.inr ⟨_, rfl, ?_, hpackets.trans hpackets₂, hgrants.trans hgrants₂⟩
    show { s₃.admission with state := .authenticated } = _
    rw [hadmission, hprovisional]

/-- What a handshake that is accepted has shown. -/
def Shows (c : Connection) (t : Turn) (payload : List UInt8) (s : Session) : Prop :=
  ∃ handshake, Handshake.decode payload = .ok handshake ∧
    (c.negotiatedIdentity = pairingIdentityPrefix ++ handshake.pairingId ∧
        (s.admission.provisional = none →
          Admits s.disk handshake.pairingId t.handshake.unixMs) ∨
      c.negotiatedIdentity = bootstrapIdentity ∧
        s.admission.grantedPairingId = some handshake.pairingId)

theorem join_welcome_cases (c : Connection) (t : Turn) (record : PairingRecord) (s : Session) :
    let o := (join c t record >>= fun _ => welcome c t).exec s
    Stopped (Same Session.ledger) Exit.Ends s o ∨
      Joined s o ∧ ∀ e, o.1 = .error e → e.Ends := by
  intro o
  rcases join_cases c t record s with ⟨hR, e, hX, he⟩ | ⟨s₁, hjoin, hjoined⟩
  · left
    have ho : o = (.error e, ((join c t record).exec s).2) := by
      show Act.exec _ s = _
      rw [exec_bind]
      rcases hexec : (join c t record).exec s with ⟨r, s₁⟩
      rw [hexec] at he
      cases he
      rfl
    rw [ho]
    exact ⟨hR, e, hX, rfl⟩
  · right
    have ho : o = (welcome c t).exec s₁ := by
      show Act.exec _ s = _
      rw [exec_bind, hjoin]
    obtain ⟨hR, hX⟩ := welcome_entry c t s₁
    obtain ⟨hadmission, hpackets, hgrants⟩ := Session.entry_eq_iff.mp hR
    rw [ho]
    exact ⟨⟨hadmission.trans hjoined.admission, hpackets.trans hjoined.packets,
      hgrants.trans hjoined.grants⟩, hX⟩

theorem handshake_cases (c : Connection) (t : Turn) (payload : List UInt8) (s : Session) :
    Stopped (Same Session.ledger) Exit.Ends s ((handshake c t payload).exec s) ∨
      Joined s ((handshake c t payload).exec s) ∧
        (∀ e, ((handshake c t payload).exec s).1 = .error e → e.Ends) ∧ Shows c t payload s := by
  set Ψ : Except Exit Unit × Session → Prop := fun o =>
    Stopped (Same Session.ledger) Exit.Ends s o ∨
      Joined s o ∧ (∀ e, o.1 = .error e → e.Ends) ∧ Shows c t payload s
  have hmain : Stopped (Same Session.entry) Exit.Ends s ((handshake c t payload).exec s) ∨
      Ψ ((handshake c t payload).exec s) := by
    rw [handshake, exec_bind]
    show Stopped _ _ s (Act.exec _ s) ∨ Ψ (Act.exec _ s)
    refine Keeps.past Ψ (Keeps.when (Keeps.raise trivial)) rfl fun _ s₁ hguard _ => ?_
    obtain ⟨-, rfl⟩ := exec_guard_eq_ok.mp hguard
    refine Keeps.past Ψ (Keeps.ofExcept fun _ => trivial) rfl fun handshake s₁ hok _ => ?_
    obtain ⟨hdecode, rfl⟩ := exec_ofExcept_eq_ok.mp hok
    refine Keeps.past Ψ (entry_of_view (knownRecord_view t handshake)) rfl
      fun record s₂ hknown hs₂ => ?_
    refine Keeps.past Ψ (Keeps.ofExcept fun _ => trivial) hs₂ fun _ s₃ hidentity hs₃ => ?_
    obtain ⟨hidentity, -⟩ := exec_ofExcept_eq_ok.mp hidentity
    have hshows : Shows c t payload s₁ := by
      refine ⟨handshake, hdecode, ?_⟩
      rcases checkIdentity_eq_ok hidentity with hpairing | hbootstrap
      · exact Or.inl ⟨hpairing, fun hfresh => admits_of_knownRecord hfresh hknown⟩
      · exact Or.inr hbootstrap
    refine Keeps.past Ψ (entry_of_quiet (negotiate_quiet c t handshake)) hs₃ fun _ s₄ _ hs₄ => ?_
    refine Keeps.past Ψ (acknowledge_entry c t) hs₄ fun _ s₅ _ hs₅ => ?_
    refine Keeps.past Ψ (entry_of_quiet (grantTrust_calm t _).quiet) hs₅ fun _ s₆ _ hs₆ => ?_
    refine Keeps.past Ψ (entry_of_view (storePairing_view t _ record)) hs₆ fun _ s₇ _ hs₇ => ?_
    obtain ⟨hadmission, hpackets, hgrants⟩ := Session.entry_eq_iff.mp hs₇
    rcases join_welcome_cases c t record s₇ with ⟨hR, hX⟩ | ⟨hjoined, hX⟩
    · exact Or.inr (Or.inl ⟨hR.trans (Session.ledger_of_entry hs₇), hX⟩)
    · exact Or.inr (Or.inr ⟨⟨by rw [hjoined.admission, hadmission],
        hjoined.packets.trans hpackets, hjoined.grants.trans hgrants⟩, hX, hshows⟩)
  rcases hmain with ⟨hR, hX⟩ | h
  · exact Or.inl ⟨Session.ledger_of_entry hR, hX⟩
  · exact h

end MahoRD.Host

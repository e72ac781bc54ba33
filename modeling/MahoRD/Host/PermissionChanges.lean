/-
MahoRD/Host/PermissionChanges.lean

What the operators of a host set reaches its sessions (`permissions_reach`), as long as every
call that tells the sessions of its permissions tells them what is stored, or leaves that to
another call, and misses no session between its handshake and the registry.
-/
import MahoRD.Host.GuestRegistry

namespace MahoRD.GuestRegistry

open Host

/-! ### Grants -/

/-- The permissions stored for an id. -/
def granted (d : Disk) (id : String) : Option GuestPermissions :=
  match PairingStore.answer (d.grants.lookup id) with
  | .ok (_, permissions) => permissions
  | .error _ => none

/-- What a session of the id has when it adopts what is stored. -/
def stored (d : Disk) (id : String) (ceiling : GuestPermissions) : GuestPermissions :=
  (granted d id).getD ceiling

/-- The grant after some commands. -/
def lastPermissions (grant : GuestPermissions) (commands : List GuestCommand) : GuestPermissions :=
  commands.foldl (fun grant command =>
    match command with
    | .permissions permissions => permissions
    | .fin _ | .status _ => grant) grant

theorem lastPermissions_append (grant : GuestPermissions) (commands more : List GuestCommand) :
    lastPermissions grant (commands ++ more) =
      lastPermissions (lastPermissions grant commands) more := List.foldl_append

theorem lastPermissions_copies {ι : Type*} (grant permissions : GuestPermissions) (l : List ι)
    (h : l ≠ []) :
    lastPermissions grant (l.map fun _ => .permissions permissions) = permissions := by
  induction l generalizing grant with
  | nil => exact absurd rfl h
  | cons i l ih =>
    cases l with
    | nil => rfl
    | cons j l => exact ih permissions (List.cons_ne_nil j l)

theorem lastPermissions_silent {ι : Type*} (grant : GuestPermissions) {command : GuestCommand}
    (h : ∀ permissions, command ≠ .permissions permissions) (l : List ι) :
    lastPermissions grant (l.map fun _ => command) = grant := by
  induction l with
  | nil => rfl
  | cons i l ih =>
    cases command with
    | permissions p => exact absurd rfl (h p)
    | fin | status => exact ih

variable {d : Disk} {p : Peer}

theorem hasKey_congr {d' : Disk} {id : String} (h : d'.records = d.records) :
    d'.HasKey id ↔ d.HasKey id := by
  unfold Disk.HasKey
  rw [h]

theorem exec_authorization_granted {files : Files} {id : String} (trust : PairingTrust)
    {permissions : Option GuestPermissions}
    (h : ((PairingStore.authorization files id).exec d).1 = .ok (trust, permissions)) :
    permissions = granted d id := by
  rw [PairingStore.exec_authorization] at h
  cases hread : files.readGrants with
  | some e => simp [hread] at h
  | none =>
    simp only [hread] at h
    rw [granted, h]

theorem exec_setAuthorization_granted (files : Files) (id : String) (trust : PairingTrust)
    (permissions : GuestPermissions) (d : Disk) :
    let written := (PairingStore.setAuthorization files id trust (some permissions)).exec d
    (written.1 = .ok () ∧ granted written.2 id = some permissions ∨
      (∃ e, written.1 = .error e) ∧ granted written.2 id = granted d id) ∧
      written.2.records = d.records ∧ ∀ other, other ≠ id → granted written.2 other = granted d other := by
  simp only [PairingStore.setAuthorization, Act.exec_bind, PairingStore.exec_readGrants]
  cases files.readGrants with
  | some e => exact ⟨.inr ⟨⟨e, rfl⟩, rfl⟩, rfl, fun _ _ => rfl⟩
  | none =>
    cases hencode : trust.encode with
    | error e => exact ⟨.inr ⟨⟨_, rfl⟩, rfl⟩, rfl, fun _ _ => rfl⟩
    | ok bytes =>
      simp only [PairingStore.exec_writeGrantsUnlocked]
      cases files.writeGrants with
      | some e => exact ⟨.inr ⟨⟨e, rfl⟩, rfl⟩, rfl, fun _ _ => rfl⟩
      | none =>
        refine ⟨.inl ⟨rfl, ?_⟩, rfl, fun other hother => ?_⟩
        · simp only [granted, AList.lookup_insert, PairingStore.answer,
            PairingTrust.decode_encode hencode]
          rfl
        · simp only [granted, AList.lookup_insert_ne hother]

/-! ### Sessions -/

namespace Peer

variable (p : Peer)

/-- All that has been sent to the session. -/
def sent : List GuestCommand := p.taken ++ p.queue

/-- The grant when the queue is empty. -/
def final : GuestPermissions := lastPermissions p.grantPermissions p.queue

/-- No command that was taken ends the session, and the grant is the last one. -/
def Faithful : Prop :=
  p.grantPermissions = lastPermissions p.adopted p.taken ∧ ∀ reason, .fin reason ∉ p.taken

/-- What holds of a session by itself. -/
def Ok : Prop :=
  match p.pc with
  | .load => p.grantPermissions = p.ceiling
  | .authorization record => p.grantPermissions = p.ceiling ∧ record.id = p.pairingId
  | .reading | .commands _ => p.Faithful
  | .dispatch _ => p.Faithful ∧
    ∃ ceiling, p.effectivePermissions = Guests.intersect p.grantPermissions ceiling
  | .admission | .leaving | .gone => True

def receive (commands : List GuestCommand) : Peer := { p with queue := p.queue ++ commands }

end Peer

/-- What a step of a session does, as long as it neither joins the registry nor leaves it. -/
structure Moves (d : Disk) (p p' : Peer) : Prop where
  pairingId : p'.pairingId = p.pairingId
  ceiling : p'.ceiling = p.ceiling
  guest : p'.guest = p.guest
  adopted : p'.adopted = p.adopted
  sent : p'.sent = p.sent
  joined : p'.pc.joined = p.pc.joined
  gone : p.pc = .gone → p'.pc = .gone
  final : p.pc.joined = true → p'.final = p.final
  ok : p.Ok → p'.Ok
  admission : p.Ok → p'.pc = .admission → p'.grantPermissions = stored d p.pairingId p.ceiling
  dispatch : ∀ packet, p'.pc = .dispatch packet → p'.queue = []

theorem Moves.of_pc {pc : Pc} (hjoined : pc.joined = p.pc.joined)
    (hgone : p.pc = .gone → pc = .gone) (hok : p.Ok → Peer.Ok { p with pc })
    (hadmission : pc ≠ .admission) (hdispatch : ∀ packet, pc ≠ .dispatch packet) :
    Moves d p { p with pc } where
  pairingId := rfl
  ceiling := rfl
  guest := rfl
  adopted := rfl
  sent := rfl
  joined := hjoined
  gone := hgone
  final _ := rfl
  ok := hok
  admission _ h := absurd h hadmission
  dispatch packet h := absurd h (hdispatch packet)

theorem moves_takeCommand {packet : Option (List UInt8)} {sent : Bool}
    {command : GuestCommand} {queue : List GuestCommand} (hpc : p.pc = .commands packet)
    (hqueue : p.queue = command :: queue) : Moves d p (takeCommand p sent command queue) := by
  have hfaithful : p.Ok → p.Faithful := by
    intro hok
    simpa only [Peer.Ok, hpc] using hok
  have hsent : (p.taken ++ [command]) ++ queue = p.sent := by simp [Peer.sent, hqueue]
  cases command with
  | fin reason =>
    exact ⟨rfl, rfl, rfl, rfl, hsent, by simp [takeCommand, hpc, Pc.joined], by simp [hpc],
      fun _ => by simp [takeCommand, Peer.final, hqueue, lastPermissions], fun _ => trivial,
      nofun, nofun⟩
  | status status =>
    have hfinal : lastPermissions p.grantPermissions queue = p.final := by
      simp [Peer.final, hqueue, lastPermissions]
    have hfaithful' : p.Ok →
        Peer.Faithful { p with queue, taken := p.taken ++ [.status status] } := by
      intro hok
      obtain ⟨hgrant, hnoFin⟩ := hfaithful hok
      refine ⟨?_, fun reason hmem => ?_⟩
      · show p.grantPermissions = _
        rw [lastPermissions_append, ← hgrant]
        rfl
      · rcases List.mem_append.mp hmem with hmem | hmem
        · exact hnoFin reason hmem
        · cases List.mem_singleton.mp hmem
    cases sent with
    | true =>
      refine ⟨rfl, rfl, rfl, rfl, hsent, rfl, by simp [hpc], fun _ => hfinal, fun hok => ?_,
        fun _ h => ?_, fun packet h => ?_⟩
      · simpa only [takeCommand, if_true, Peer.Ok, hpc] using hfaithful' hok
      · cases hpc.symm.trans h
      · cases hpc.symm.trans h
    | false =>
      exact ⟨rfl, rfl, rfl, rfl, hsent, by simp [takeCommand, hpc, Pc.joined], by simp [hpc],
        fun _ => hfinal, fun _ => trivial, nofun, nofun⟩
  | permissions permissions =>
    refine ⟨rfl, rfl, rfl, rfl, hsent, rfl, by simp [hpc], fun _ => ?_, fun hok => ?_,
      fun _ h => ?_, fun packet h => ?_⟩
    · simp [takeCommand, Peer.final, hqueue, lastPermissions]
    · obtain ⟨hgrant, hnoFin⟩ := hfaithful hok
      simp only [takeCommand, Peer.Ok, hpc]
      refine ⟨?_, fun reason hmem => ?_⟩
      · show permissions = _
        rw [lastPermissions_append]
        rfl
      · rcases List.mem_append.mp hmem with hmem | hmem
        · exact hnoFin reason hmem
        · cases List.mem_singleton.mp hmem
    · cases hpc.symm.trans h
    · cases hpc.symm.trans h

theorem moves_servePeer {packet : Option (List UInt8)}
    {ceiling : GuestPermissions} {now : UInt64} {sent : Bool} (hpc : p.pc = .commands packet)
    (hqueue : p.queue = []) : Moves d p (servePeer p packet ceiling now sent) := by
  have hleave : Moves d p { p with pc := .leaving } :=
    .of_pc (by simp [hpc, Pc.joined]) (by simp [hpc]) (fun _ => trivial) nofun nofun
  unfold servePeer
  split
  · exact hleave
  · show Moves d p (if _ then _ else _)
    split
    · exact hleave
    · have hfaithful : p.Ok → p.Faithful := by
        intro hok
        simpa only [Peer.Ok, hpc] using hok
      cases packet with
      | none =>
        exact ⟨rfl, rfl, rfl, rfl, rfl, by simp [hpc, Pc.joined], by simp [hpc], fun _ => rfl,
          hfaithful, nofun, nofun⟩
      | some packet =>
        exact ⟨rfl, rfl, rfl, rfl, rfl, by simp [hpc, Pc.joined], by simp [hpc], fun _ => rfl,
          fun hok => ⟨hfaithful hok, ceiling, rfl⟩, nofun, fun _ _ => hqueue⟩

section Machine

variable {τ ω : Type*} [DecidableEq τ]

/-- What the step of a session does to the state. -/
inductive Steps (s : State τ ω) (t : τ) (p : Peer) : State τ ω → Prop
  | moved {p'} (hmoves : Moves s.disk p p') : Steps s t p (s.setPeer t p')
  | joined {guest ceiling} (hpc : p.pc = .admission) (hguest : guest.pairingId = p.pairingId)
      (hfresh : s.sessions.lookup guest.id = none) : Steps s t p (s.join t p guest ceiling)
  | dropped {guest} (hpc : p.pc = .leaving) (hguest : p.guest = some guest) :
      Steps s t p (s.dropGuard t p guest)

variable {p p' : Peer} {s s' : State τ ω} {t : τ} {o : ω} {whom : String → GuestSession → Bool}
  {d : Disk}

theorem stepPeer_cases {label : Label τ ω}
    (h : stepPeer s p label = some s') (hlabel : label.peer = some t) : Steps s t p s' := by
  cases label with
  | handshake | set | go | kick => cases hlabel
  | load t' files =>
    cases hlabel
    simp only [stepPeer] at h
    split at h
    · rename_i hpc
      have hgone : Moves s.disk p { p with pc := .gone } :=
        .of_pc (by simp [hpc, Pc.joined]) (fun _ => rfl) (fun _ => trivial) nofun nofun
      split at h
      · rename_i record hload
        cases h
        refine .moved (.of_pc (by simp [hpc, Pc.joined]) (by simp [hpc]) (fun hok => ?_) nofun
          nofun)
        simp only [Peer.Ok, hpc] at hok
        refine ⟨hok, ?_⟩
        rw [PairingStore.exec_load] at hload
        cases hread : files.readRecords with
        | some e => simp [hread] at hload
        | none =>
          simp only [hread, Except.ok.injEq] at hload
          simpa using List.find?_some hload
      · cases h
        exact .moved hgone
    · cases h
  | authorization t' files now =>
    cases hlabel
    simp only [stepPeer] at h
    split at h
    · rename_i record hpc
      have hgone : Moves s.disk p { p with pc := .gone } :=
        .of_pc (by simp [hpc, Pc.joined]) (fun _ => rfl) (fun _ => trivial) nofun nofun
      split at h
      · cases h
        exact .moved hgone
      · rename_i authorization hread
        split at h
        · cases h
          exact .moved hgone
        · rename_i sessionTrust grantPermissions hadopt
          cases h
          refine .moved ⟨rfl, rfl, rfl, rfl, rfl, by simp [hpc, Pc.joined], by simp [hpc],
            fun hjoined => by simp [hpc, Pc.joined] at hjoined, fun _ => trivial, fun hok _ => ?_,
            nofun⟩
          simp only [Peer.Ok, hpc] at hok
          obtain ⟨hceiling, hid⟩ := hok
          have hgranted := exec_authorization_granted authorization.1 hread
          unfold Authorization.adopt at hadopt
          split at hadopt
          · cases hadopt
            show authorization.2.getD p.grantPermissions = _
            rw [hgranted, hid, hceiling]
            rfl
          · cases hadopt
    · cases h
  | join t' guestId name ceiling =>
    cases hlabel
    simp only [stepPeer] at h
    split at h
    · rename_i hpc
      cases h
      exact .joined hpc.1 rfl hpc.2
    · cases h
  | read t' outcome =>
    cases hlabel
    simp only [stepPeer] at h
    split at h
    · rename_i hpc
      have hfaithful : p.Ok → p.Faithful := by
        intro hok
        simpa only [Peer.Ok, hpc] using hok
      have hleave : Moves s.disk p { p with pc := .leaving } :=
        .of_pc (by simp [hpc, Pc.joined]) (by simp [hpc]) (fun _ => trivial) nofun nofun
      have hread : ∀ packet, Moves s.disk p { p with pc := .commands packet } := fun packet =>
        .of_pc (by simp [hpc, Pc.joined]) (by simp [hpc]) hfaithful nofun nofun
      split at h
      · cases h
        exact .moved hleave
      · cases h
        exact .moved (hread none)
      · rename_i packet
        cases h
        cases hangsUp packet with
        | true => exact .moved hleave
        | false => exact .moved (hread (some packet))
    · cases h
  | skip t' =>
    cases hlabel
    simp only [stepPeer] at h
    split at h
    · rename_i hpc
      cases h
      refine .moved (.of_pc (by simp [hpc, Pc.joined]) (by simp [hpc]) (fun hok => ?_) nofun nofun)
      simp only [Peer.Ok, hpc] at hok
      exact hok
    · cases h
  | command t' sent =>
    cases hlabel
    simp only [stepPeer] at h
    split at h
    · rename_i hpc hqueue
      cases h
      exact .moved (moves_takeCommand hpc hqueue)
    · cases h
  | serve t' ceiling now sent =>
    cases hlabel
    simp only [stepPeer] at h
    split at h
    · rename_i hpc hqueue
      cases h
      exact .moved (moves_servePeer hpc hqueue)
    · cases h
  | dispatched t' =>
    cases hlabel
    simp only [stepPeer] at h
    split at h
    · rename_i hpc
      cases h
      refine .moved (.of_pc (by simp [hpc, Pc.joined]) (by simp [hpc]) (fun hok => ?_) nofun nofun)
      simp only [Peer.Ok, hpc] at hok
      exact hok.1
    · cases h
  | fail t' =>
    cases hlabel
    simp only [stepPeer] at h
    split at h
    · rename_i hjoined
      cases h
      exact .moved (.of_pc hjoined.symm
        (fun hgone => by simp [hgone, Pc.joined] at hjoined) (fun _ => trivial) nofun nofun)
    · rename_i hjoined
      cases h
      exact .moved (.of_pc (Bool.eq_false_of_not_eq_true hjoined).symm (fun _ => rfl) (fun _ => trivial)
        nofun nofun)
  | drop t' =>
    cases hlabel
    simp only [stepPeer] at h
    split at h
    · rename_i hpc hguest
      cases h
      exact .dropped hpc hguest
    · cases h

variable [DecidableEq ω]

/-- What the step of a call does to the state. -/
inductive CallSteps (s : State τ ω) (o : ω) (call : SetCall) : State τ ω → Prop
  | waited {phase disk} (hwas : call.phase ≠ .broadcast)
      (hphase : phase = .broadcast → ¬ s.disk.HasKey call.pairingId)
      (hrecords : disk.records = s.disk.records) (hgranted : granted disk = granted s.disk) :
      CallSteps s o call { s.setCall o { call with phase } with disk }
  | wrote {disk} (hwas : call.phase ≠ .broadcast) (hrecords : disk.records = s.disk.records)
      (hgranted : granted disk call.pairingId = some call.permissions)
      (hother : ∀ other, other ≠ call.pairingId → granted disk other = granted s.disk other) :
      CallSteps s o call { s.setCall o { call with phase := .broadcast } with disk }
  | told (hphase : call.phase = .broadcast) : CallSteps s o call
      ((s.setCall o { call with phase := .returned (.ok ()) }).tell
        (fun _ guest => guest.pairingId = call.pairingId) (.permissions call.permissions))

theorem CallSteps.quiet {call : SetCall} {phase : Phase}
    (hwas : call.phase ≠ .broadcast)
    (hphase : phase = .broadcast → ¬ s.disk.HasKey call.pairingId) :
    CallSteps s o call (s.setCall o { call with phase }) :=
  @CallSteps.waited _ _ _ _ s o call phase s.disk hwas hphase rfl rfl

theorem stepCall_cases {call : SetCall} {files : Files}
    (h : stepCall s o call files = some s') : CallSteps s o call s' := by
  unfold stepCall at h
  split at h
  · rename_i hphase
    have hwas : call.phase ≠ .broadcast := by simp [hphase]
    split at h
    · cases h
      exact .quiet hwas nofun
    · rename_i hload
      cases h
      refine .quiet hwas fun _ => ?_
      rw [PairingStore.exec_load] at hload
      cases hread : files.readRecords with
      | some e => simp [hread] at hload
      | none =>
        simp only [hread, Except.ok.injEq, List.find?_eq_none] at hload
        rintro ⟨record, hmem, hid⟩
        exact hload record hmem (decide_eq_true hid)
    · cases h
      exact .quiet hwas nofun
  · rename_i hphase
    have hwas : call.phase ≠ .broadcast := by simp [hphase]
    split at h
    · cases h
      exact .quiet hwas nofun
    · cases h
      exact .quiet hwas nofun
  · rename_i trust hphase
    have hwas : call.phase ≠ .broadcast := by simp [hphase]
    obtain ⟨hresult, hrecords, hother⟩ := exec_setAuthorization_granted files call.pairingId
      trust call.permissions s.disk
    rcases hresult with ⟨hok, hgranted⟩ | ⟨⟨e, he⟩, hgranted⟩
    · simp only [hok] at h
      cases h
      exact .wrote hwas hrecords hgranted hother
    · simp only [he] at h
      cases h
      refine .waited hwas nofun hrecords ?_
      funext other
      by_cases hid : other = call.pairingId
      · rw [hid, hgranted]
      · exact hother other hid
  · rename_i hphase
    cases h
    exact .told hphase
  · cases h

/-! ### The invariant -/

omit [DecidableEq ω] in
theorem mem_tell {command : GuestCommand} : p' ∈ (s.tell whom command).peers t ↔ ∃ p ∈ s.peers t, p' = p.receive
      ((s.sessions.entries.filter fun e => e.2.2 = t ∧ whom e.1 e.2.1).map fun _ => command) := by
  simp only [State.tell, Option.mem_def, Option.map_eq_some_iff]
  exact exists_congr fun p => and_congr_right fun _ => eq_comm

/-- The session has, or is going to have, what is stored. -/
def Agrees (d : Disk) (p : Peer) : Prop :=
  (p.pc.joined = true → p.final = stored d p.pairingId p.ceiling) ∧
    (p.pc = .admission → p.grantPermissions = stored d p.pairingId p.ceiling)

/-- All sessions of the id do. -/
def Settled (s : State τ ω) (id : String) : Prop :=
  ∀ t, ∀ p ∈ s.peers t, p.pairingId = id → Agrees s.disk p

/-- What is stored for the id is still to be told. -/
def Pending (s : State τ ω) (id : String) : Prop :=
  ∃ o, ∃ call ∈ s.calls o, call.phase = .broadcast ∧ call.pairingId = id ∧
    granted s.disk id = some call.permissions

structure Inv (s : State τ ω) : Prop where
  ok : ∀ t, ∀ p ∈ s.peers t, p.Ok
  registered : ∀ t, ∀ p ∈ s.peers t, p.pc.joined = true → ∃ guest, p.guest = some guest ∧
    guest.pairingId = p.pairingId ∧ s.sessions.lookup guest.id = some (guest, t)
  listed : ∀ key guest t, s.sessions.lookup key = some (guest, t) →
    ∃ p ∈ s.peers t, guest.pairingId = p.pairingId
  reaches : ∀ id, s.disk.HasKey id → Settled s id ∨ Pending s id

theorem Agrees.moves (h : Agrees d p) (hok : p.Ok) (hmoves : Moves d p p') :
    Agrees d p' := by
  unfold Agrees
  rw [hmoves.joined, hmoves.pairingId, hmoves.ceiling]
  exact ⟨fun hjoined => (hmoves.final hjoined).trans (h.1 hjoined), hmoves.admission hok⟩

theorem Agrees.of_granted {d' : Disk} (h : Agrees d p)
    (hgranted : granted d' p.pairingId = granted d p.pairingId) : Agrees d' p := by
  unfold Agrees stored at h ⊢
  rw [hgranted]
  exact h

theorem Agrees.receive {ι : Type*} {command : GuestCommand}
    (hsilent : ∀ permissions, command ≠ .permissions permissions) (l : List ι) (h : Agrees d p) :
    Agrees d (p.receive (l.map fun _ => command)) := by
  refine ⟨fun hjoined => ?_, h.2⟩
  show lastPermissions p.grantPermissions (p.queue ++ _) = _
  rw [lastPermissions_append, lastPermissions_silent _ hsilent]
  exact h.1 hjoined

omit [DecidableEq ω] in
theorem Inv.tell {command : GuestCommand}
    (h : Inv s) (calls : ω → Option SetCall) (hreaches : ∀ id, s.disk.HasKey id →
      Settled ({ s with calls }.tell whom command) id ∨
        Pending ({ s with calls }.tell whom command) id) :
    Inv ({ s with calls }.tell whom command) where
  ok t p' hp' := by
    obtain ⟨p, hp, rfl⟩ := mem_tell.mp hp'
    exact h.ok t p hp
  registered t p' hp' hjoined := by
    obtain ⟨p, hp, rfl⟩ := mem_tell.mp hp'
    exact h.registered t p hp hjoined
  listed key guest t hlookup := by
    obtain ⟨p, hp, hpairing⟩ := h.listed key guest t hlookup
    exact ⟨_, mem_tell.mpr ⟨p, hp, rfl⟩, hpairing⟩
  reaches := hreaches

omit [DecidableEq ω] in
theorem Inv.silent {command : GuestCommand}
    (h : Inv s) (hsilent : ∀ permissions, command ≠ .permissions permissions) :
    Inv (s.tell whom command) := by
  refine h.tell s.calls fun id hkey => ?_
  refine (h.reaches id hkey).imp (fun hsettled t p' hp' hid => ?_) fun hpending => hpending
  obtain ⟨p, hp, rfl⟩ := mem_tell.mp hp'
  exact (hsettled t p hp hid).receive hsilent _

omit [DecidableEq ω] in
theorem Inv.publishStatus (h : Inv s) : Inv s.publishStatus := h.silent nofun

omit [DecidableEq ω] in
theorem Inv.setPeer {sessions : Table String (GuestSession × τ)}
    (h : Inv s) (hok : p'.Ok)
    (hregistered : p'.pc.joined = true → ∃ guest, p'.guest = some guest ∧
      guest.pairingId = p'.pairingId ∧ sessions.lookup guest.id = some (guest, t))
    (hkept : ∀ u, u ≠ t → ∀ guest, s.sessions.lookup guest.id = some (guest, u) →
      sessions.lookup guest.id = some (guest, u))
    (hsame : ∀ p ∈ s.peers t, p'.pairingId = p.pairingId)
    (hlisted : ∀ key guest u, sessions.lookup key = some (guest, u) →
      s.sessions.lookup key = some (guest, u) ∨ u = t ∧ guest.pairingId = p'.pairingId)
    (hagrees : Settled s p'.pairingId → Agrees s.disk p') :
    Inv { s.setPeer t p' with sessions } := by
  have hset : ∀ u, ∀ q ∈ (s.setPeer t p').peers u, u = t ∧ q = p' ∨ u ≠ t ∧ q ∈ s.peers u := by
    intro u q hq
    by_cases hu : u = t
    · subst hu
      simp only [State.setPeer, Function.update_self, Option.mem_def, Option.some.injEq] at hq
      exact .inl ⟨rfl, hq.symm⟩
    · simp only [State.setPeer, Function.update_of_ne hu] at hq
      exact .inr ⟨hu, hq⟩
  constructor
  · intro u q hq
    rcases hset u q hq with ⟨rfl, rfl⟩ | ⟨-, hwas⟩
    · exact hok
    · exact h.ok u q hwas
  · intro u q hq hjoined
    rcases hset u q hq with ⟨rfl, rfl⟩ | ⟨hu, hwas⟩
    · exact hregistered hjoined
    · obtain ⟨guest, hguest, hpairing, hlookup⟩ := h.registered u q hwas hjoined
      exact ⟨guest, hguest, hpairing, hkept u hu guest hlookup⟩
  · intro key guest u hlookup
    by_cases hu : u = t
    · subst hu
      refine ⟨p', Function.update_self _ _ _, ?_⟩
      rcases hlisted key guest u hlookup with hwas | ⟨-, hnew⟩
      · obtain ⟨p, hp, hpairing⟩ := h.listed key guest u hwas
        exact hpairing.trans (hsame p hp).symm
      · exact hnew
    · rcases hlisted key guest u hlookup with hwas | ⟨heq, -⟩
      · obtain ⟨p, hp, hpairing⟩ := h.listed key guest u hwas
        exact ⟨p, (Function.update_of_ne hu _ _).trans hp, hpairing⟩
      · exact absurd heq hu
  · intro id hkey
    refine (h.reaches id hkey).imp (fun hsettled u q hq hid => ?_) fun hpending => hpending
    rcases hset u q hq with ⟨rfl, rfl⟩ | ⟨-, hwas⟩
    · exact hagrees (hid ▸ hsettled)
    · exact hsettled u q hwas hid

omit [DecidableEq ω] in
theorem Inv.steps (h : Inv s) (hp : p ∈ s.peers t)
    (hsteps : Steps s t p s') : Inv s' := by
  have hown : ∀ q ∈ s.peers t, p.pairingId = q.pairingId := by
    intro q hq
    cases hp.symm.trans hq
    rfl
  cases hsteps with
  | @moved p' hmoves =>
    have hsame : ∀ q ∈ s.peers t, p'.pairingId = q.pairingId := fun q hq =>
      hmoves.pairingId.trans (hown q hq)
    refine h.setPeer (hmoves.ok (h.ok t p hp)) (fun hjoined => ?_) (fun _ _ _ hlookup => hlookup)
      hsame (fun _ _ _ hlookup => .inl hlookup) fun hsettled => (hsettled t p hp hmoves.pairingId.symm).moves (h.ok t p hp) hmoves
    rw [hmoves.guest, hmoves.pairingId]
    exact h.registered t p hp (hmoves.joined.symm.trans hjoined)
  | @joined guest ceiling hpc hguest hfresh =>
    refine Inv.publishStatus ?_
    refine h.setPeer ?_ (fun _ => ⟨guest, rfl, hguest, AList.lookup_insert _⟩)
      (fun u hu other hlookup => ?_) hown (fun key other u hlookup => ?_)
      fun hsettled => ⟨fun _ => ?_, nofun⟩
    · exact ⟨rfl, fun reason hmem => nomatch hmem⟩
    · rw [AList.lookup_insert_ne fun heq => ?_]
      · exact hlookup
      · cases (heq ▸ hlookup).symm.trans hfresh
    · rw [Table.lookup_insert] at hlookup
      split at hlookup
      · cases hlookup
        exact .inr ⟨rfl, hguest⟩
      · exact .inl hlookup
    · exact (hsettled t p hp rfl).2 hpc
  | @dropped guest hpc hguest =>
    obtain ⟨guest', hguest', -, hlookup'⟩ := h.registered t p hp (by simp [hpc, Pc.joined])
    cases hguest'.symm.trans hguest
    refine Inv.publishStatus ?_
    refine h.setPeer trivial nofun (fun u hu other hlookup => ?_) hown
      (fun key other u hlookup => .inl (Table.lookup_erase_eq_some.mp hlookup).2)
      fun _ => ⟨nofun, nofun⟩
    rw [AList.lookup_erase_ne fun heq => ?_]
    · exact hlookup
    · cases (heq ▸ hlookup).symm.trans hlookup'
      exact hu rfl

/-- A call that tells the sessions of an id tells them what is stored, or another call will; and
each session between its handshake and the registry has that or what is stored. -/
def Reaches (s : State τ ω) : Label τ ω → Prop
  | .go o _ => ∀ call ∈ s.calls o, call.phase = .broadcast → s.disk.HasKey call.pairingId →
    (granted s.disk call.pairingId = some call.permissions ∨
      ∃ o', o' ≠ o ∧ ∃ call' ∈ s.calls o', call'.phase = .broadcast ∧
        call'.pairingId = call.pairingId ∧
        granted s.disk call.pairingId = some call'.permissions) ∧
    ∀ t, ∀ p ∈ s.peers t, p.pairingId = call.pairingId → p.pc = .admission →
      p.grantPermissions = call.permissions ∨
        p.grantPermissions = stored s.disk p.pairingId p.ceiling
  | _ => True

instance Reaches.decidable [Fintype τ] [Fintype ω] (s : State τ ω) :
    ∀ label, Decidable (Reaches s label)
  | .go o _ => inferInstanceAs (Decidable (∀ call ∈ s.calls o, _ → s.disk.HasKey call.pairingId →
      (_ ∨ ∃ o', o' ≠ o ∧ ∃ call' ∈ s.calls o', _ ∧ _ ∧ _) ∧ ∀ t, ∀ p ∈ s.peers t, _ → _ → _ ∨ _))
  | .handshake .. | .load .. | .authorization .. | .join .. | .read .. | .skip _ | .command ..
  | .serve .. | .dispatched _ | .fail _ | .drop _ | .set .. | .kick _ => isTrue trivial

theorem Inv.calls {files : Files} {call : SetCall} (h : Inv s)
    (hcall : call ∈ s.calls o) (hreaches : Reaches s (.go o files : Label τ ω))
    (hsteps : CallSteps s o call s') : Inv s' := by
  cases hsteps with
  | waited hwas hphase hrecords hgranted =>
    refine ⟨h.ok, h.registered, h.listed, fun id hkey => ?_⟩
    rcases h.reaches id ((hasKey_congr hrecords).mp hkey) with
      hsettled | ⟨o', call', hcall', hphase', hid, hperm⟩
    · refine .inl fun t p hp hid => ?_
      exact (hsettled t p hp hid).of_granted (congrFun hgranted _)
    · have ho : o' ≠ o := by
        rintro rfl
        cases hcall'.symm.trans hcall
        exact hwas hphase'
      refine .inr ⟨o', call', (Function.update_of_ne ho _ _).trans hcall', hphase', hid, ?_⟩
      exact (congrFun hgranted id).trans hperm
  | wrote hwas hrecords hgranted hother =>
    refine ⟨h.ok, h.registered, h.listed, fun id hkey => ?_⟩
    by_cases hid : id = call.pairingId
    · refine .inr ⟨o, _, Function.update_self _ _ _, rfl, hid.symm, ?_⟩
      rw [hid]
      exact hgranted
    · rcases h.reaches id ((hasKey_congr hrecords).mp hkey) with
        hsettled | ⟨o', call', hcall', hphase', hid', hperm⟩
      · refine .inl fun t p hp hp' => ?_
        exact (hsettled t p hp hp').of_granted (hother _ (hp' ▸ hid))
      · have ho : o' ≠ o := by
          rintro rfl
          cases hcall'.symm.trans hcall
          exact hid hid'.symm
        refine .inr ⟨o', call', (Function.update_of_ne ho _ _).trans hcall', hphase', hid', ?_⟩
        exact (hother id hid).trans hperm
  | told hphase =>
    refine h.tell _ fun id hkey => ?_
    by_cases hid : id = call.pairingId
    · subst hid
      obtain ⟨hstored | ⟨o', ho, call', hcall', hrest⟩, hwindow⟩ := hreaches call hcall hphase hkey
      · refine .inl fun t p' hp' hid => ?_
        obtain ⟨p, hp, rfl⟩ := mem_tell.mp hp'
        have hstored' : stored s.disk p.pairingId p.ceiling = call.permissions := by
          rw [stored, show p.pairingId = call.pairingId from hid, hstored]
          rfl
        refine ⟨fun hjoined => ?_, fun hpc => ?_⟩
        · obtain ⟨guest, -, hpairing, hlookup⟩ := h.registered t p hp hjoined
          show lastPermissions p.grantPermissions (p.queue ++ _) = stored s.disk _ _
          rw [lastPermissions_append]
          refine (lastPermissions_copies _ _ _ ?_).trans hstored'.symm
          refine List.ne_nil_of_mem (List.mem_filter.mpr
            ⟨AList.mem_lookup_iff.mp hlookup, ?_⟩)
          simpa using hpairing.trans hid
        · show p.grantPermissions = stored s.disk _ _
          rcases hwindow t p hp hid hpc with heq | heq
          · exact heq.trans hstored'.symm
          · exact heq
      · exact .inr ⟨o', call', (Function.update_of_ne ho _ _).trans hcall', hrest⟩
    · rcases h.reaches id hkey with hsettled | ⟨o', call', hcall', hphase', hid', hperm⟩
      · refine .inl fun t p' hp' hp => ?_
        obtain ⟨p, hp₀, rfl⟩ := mem_tell.mp hp'
        have hnone : (s.sessions.entries.filter fun e =>
            e.2.2 = t ∧ decide (e.2.1.pairingId = call.pairingId) = true) = [] := by
          refine List.filter_eq_nil_iff.mpr fun e he => ?_
          rintro hwhom
          obtain ⟨rfl, htold⟩ := of_decide_eq_true hwhom
          obtain ⟨q, hq, hpairing⟩ := h.listed e.1 e.2.1 e.2.2 (AList.mem_lookup_iff.mpr he)
          cases hq.symm.trans hp₀
          exact hid (hp.symm.trans (hpairing.symm.trans (of_decide_eq_true htold)))
        have hsame : p.receive [] = p := by simp [Peer.receive]
        show Agrees s.disk (p.receive (List.map _ (List.filter _ s.sessions.entries)))
        rw [hnone, List.map_nil, hsame]
        exact hsettled t p hp₀ hp
      · have ho : o' ≠ o := by
          rintro rfl
          cases hcall'.symm.trans hcall
          exact hid hid'.symm
        exact .inr ⟨o', call', (Function.update_of_ne ho _ _).trans hcall', hphase', hid', hperm⟩

/-- **One step keeps the invariant**, if it meets the condition. -/
theorem Inv.step {label : Label τ ω} (h : Inv s) (hreaches : Reaches s label)
    (hstep : step s label = some s') : Inv s' := by
  have hpeer : ∀ t, label.peer = some t → (∃ p ∈ s.peers t, stepPeer s p label = some s') →
      Inv s' := by
    rintro t hlabel ⟨p, hp, hs⟩
    exact h.steps hp (stepPeer_cases hs hlabel)
  cases label with
  | handshake t pairingId ceiling =>
    simp only [GuestRegistry.step] at hstep
    split at hstep
    · cases hstep
    · cases hstep
      rename_i hnone
      exact h.setPeer rfl nofun (fun _ _ _ hlookup => hlookup) (by simp [hnone])
        (fun _ _ _ hlookup => .inl hlookup) fun _ => ⟨nofun, nofun⟩
  | set o pairingId permissions =>
    simp only [GuestRegistry.step] at hstep
    split at hstep
    · cases hstep
    · rename_i hnone
      cases hstep
      refine ⟨h.ok, h.registered, h.listed, fun id hkey => (h.reaches id hkey).imp (fun hs => hs) ?_⟩
      rintro ⟨o', call, hcall, hrest⟩
      have ho : o' ≠ o := by
        rintro rfl
        cases hnone.symm.trans hcall
      exact ⟨o', call, (Function.update_of_ne ho _ _).trans hcall, hrest⟩
  | go o files =>
    obtain ⟨call, hcall, hs⟩ := Option.bind_eq_some_iff.mp hstep
    exact h.calls hcall hreaches (stepCall_cases hs)
  | kick id =>
    cases hstep
    exact h.silent nofun
  | _ =>
    obtain ⟨p, hp, hs⟩ := Option.bind_eq_some_iff.mp hstep
    exact hpeer _ rfl ⟨p, hp, hs⟩

omit [DecidableEq τ] [DecidableEq ω] in
theorem Inv.start (d : Disk) : Inv (State.init d : State τ ω) where
  ok t p hp := by cases hp
  registered t p hp := by cases hp
  listed key guest t h := by cases h
  reaches id _ := .inl fun t p hp => by cases hp

end Machine

/-! ### The steps of one session -/

/-- What becomes of a session in a step. -/
inductive Evolves {τ ω : Type*} (d : Disk) (t : τ) (label : Label τ ω) (p : Peer) : Peer → Prop
  | received (hlabel : ∀ outcome, label ≠ .read t outcome) (commands : List GuestCommand) :
      Evolves d t label p (p.receive commands)
  | moved {p'} (hmoves : Moves d p p') : Evolves d t label p p'
  | joined {guest effectivePermissions} (hpc : p.pc = .admission) (commands : List GuestCommand) :
      Evolves d t label p (Peer.receive { p with
        pc := .reading
        guest := some guest
        effectivePermissions
        adopted := p.grantPermissions
        queue := []
        taken := [] } commands)
  | dropped (hpc : p.pc = .leaving) (commands : List GuestCommand) :
      Evolves d t label p (Peer.receive { p with pc := .gone } commands)

section Evolves

variable {τ ω : Type*} [DecidableEq τ] [DecidableEq ω] {s s' : State τ ω} {label : Label τ ω}
  {t : τ} {p : Peer}

omit [DecidableEq τ] [DecidableEq ω] in
theorem Evolves.same {d : Disk} (hlabel : ∀ outcome, label ≠ .read t outcome) :
    Evolves d t label p p := by
  have h := Evolves.received (d := d) (p := p) hlabel []
  rwa [show p.receive [] = p by simp [Peer.receive]] at h

omit [DecidableEq ω] in
theorem tell_peers {whom : String → GuestSession → Bool} {command : GuestCommand}
    (hp : s.peers t = some p) :
    ∃ commands, (s.tell whom command).peers t = some (p.receive commands) :=
  ⟨_, mem_tell.mpr ⟨p, hp, rfl⟩⟩

omit [DecidableEq ω] in
theorem publishStatus_peers {sessions : Table String (GuestSession × τ)}
    (hp : s.peers t = some p) :
    ∃ commands, (State.publishStatus { s with sessions }).peers t = some (p.receive commands) :=
  tell_peers (s := { s with sessions }) hp

omit [DecidableEq ω] in
theorem evolves_steps {u : τ} {q : Peer} (hp : s.peers t = some p) (hq : q ∈ s.peers u)
    (hu : label.peer = some u) (hsteps : Steps s u q s') :
    ∃ p', s'.peers t = some p' ∧ Evolves s.disk t label p p' := by
  by_cases htu : t = u
  · subst htu
    cases hp.symm.trans hq
    cases hsteps with
    | moved hmoves => exact ⟨_, s.setPeer_self t _, .moved hmoves⟩
    | joined hpc =>
      obtain ⟨commands, htold⟩ := publishStatus_peers (s.setPeer_self t _)
      exact ⟨_, htold, .joined hpc commands⟩
    | dropped hpc =>
      obtain ⟨commands, htold⟩ := publishStatus_peers (s.setPeer_self t _)
      exact ⟨_, htold, .dropped hpc commands⟩
  · have hlabel : ∀ outcome, label ≠ .read t outcome := by
      rintro outcome rfl
      exact htu (Option.some.inj hu)
    have hkept : ∀ q', (s.setPeer u q').peers t = some p := fun q' =>
      (Function.update_of_ne htu _ _).trans hp
    cases hsteps with
    | moved => exact ⟨p, hkept _, .same hlabel⟩
    | joined =>
      obtain ⟨commands, htold⟩ := publishStatus_peers (hkept _)
      exact ⟨_, htold, .received hlabel commands⟩
    | dropped =>
      obtain ⟨commands, htold⟩ := publishStatus_peers (hkept _)
      exact ⟨_, htold, .received hlabel commands⟩

theorem evolves_step (hstep : step s label = some s') (hp : s.peers t = some p) :
    ∃ p', s'.peers t = some p' ∧ Evolves s.disk t label p p' := by
  cases label with
  | handshake u pairingId ceiling =>
    simp only [step] at hstep
    split at hstep
    · cases hstep
    · rename_i hnone
      cases hstep
      have htu : t ≠ u := by
        rintro rfl
        cases hp.symm.trans hnone
      exact ⟨p, (Function.update_of_ne htu _ _).trans hp, .same nofun⟩
  | set o pairingId permissions =>
    simp only [step] at hstep
    split at hstep
    · cases hstep
    · cases hstep
      exact ⟨p, hp, .same nofun⟩
  | go o files =>
    obtain ⟨call, hcall, hs⟩ := Option.bind_eq_some_iff.mp hstep
    cases stepCall_cases hs with
    | waited | wrote => exact ⟨p, hp, .same nofun⟩
    | told =>
      obtain ⟨commands, htold⟩ := tell_peers (s := s.setCall o _) hp
      exact ⟨_, htold, .received (by simp) commands⟩
  | kick id =>
    cases hstep
    obtain ⟨commands, htold⟩ := tell_peers hp
    exact ⟨_, htold, .received (by simp) commands⟩
  | _ =>
    obtain ⟨q, hq, hs⟩ := Option.bind_eq_some_iff.mp hstep
    exact evolves_steps hp hq rfl (stepPeer_cases hs rfl)

omit [DecidableEq ω] in
theorem tell_none {whom : String → GuestSession → Bool} {command : GuestCommand}
    (hnone : s.peers t = none) : (s.tell whom command).peers t = none := by
  simp only [State.tell, hnone, Option.map_none]

omit [DecidableEq ω] in
theorem none_steps {u : τ} {q : Peer} (hnone : s.peers t = none) (hq : q ∈ s.peers u)
    (hsteps : Steps s u q s') : s'.peers t = none := by
  have htu : t ≠ u := by
    rintro rfl
    cases hnone.symm.trans hq
  have hkept : ∀ q', (s.setPeer u q').peers t = none := fun q' =>
    (Function.update_of_ne htu _ _).trans hnone
  cases hsteps with
  | moved => exact hkept _
  | joined | dropped =>
    simp only [State.join, State.dropGuard, State.publishStatus]
    exact tell_none (hkept _)

theorem step_new (hstep : step s label = some s') (hnone : s.peers t = none)
    (hp : s'.peers t = some p) : p.pc = .load ∧ p.grantPermissions = p.ceiling := by
  cases label with
  | handshake u pairingId ceiling =>
    simp only [step] at hstep
    split at hstep
    · cases hstep
    · cases hstep
      by_cases htu : t = u
      · subst htu
        cases (s.setPeer_self t _).symm.trans hp
        exact ⟨rfl, rfl⟩
      · cases hnone.symm.trans ((Function.update_of_ne htu _ _).symm.trans hp)
  | set o pairingId permissions =>
    simp only [step] at hstep
    split at hstep
    · cases hstep
    · cases hstep
      cases hnone.symm.trans hp
  | go o files =>
    obtain ⟨call, hcall, hs⟩ := Option.bind_eq_some_iff.mp hstep
    cases stepCall_cases hs with
    | waited | wrote => cases hnone.symm.trans hp
    | told => cases (tell_none (s := s.setCall o _) hnone).symm.trans hp
  | kick id =>
    cases hstep
    cases (tell_none hnone).symm.trans hp
  | _ =>
    obtain ⟨q, hq, hs⟩ := Option.bind_eq_some_iff.mp hstep
    cases (none_steps hnone hq (stepPeer_cases hs rfl)).symm.trans hp

end Evolves

/-! ### What was sent before a packet was read -/

/-- A session that has joined the registry, against what had been sent to it: when it has read a
packet since, it takes all of that before it acts on the packet. -/
structure Taken {τ ω : Type*} (sent : List GuestCommand) (t : τ) (labels : List (Label τ ω))
    (p : Peer) : Prop where
  settled : p.pc.joined = true ∨ p.pc = .gone
  got : sent <+: p.sent
  taken : (∃ outcome, .read t outcome ∈ labels) → ∀ packet, p.pc = .dispatch packet →
    sent <+: p.taken

section Histories

variable {τ ω : Type*} {labels : List (Label τ ω)} {label : Label τ ω} {t : τ} {p p' : Peer}

theorem Taken.evolves {d : Disk} {sent : List GuestCommand} (h : Taken sent t labels p)
    (hevolves : Evolves d t label p p') : Taken sent t (labels ++ [label]) p' := by
  cases hevolves with
  | received hlabel commands =>
    refine ⟨h.settled, ?_, fun hread packet hpc => h.taken ?_ packet hpc⟩
    · have happend : (p.receive commands).sent = p.sent ++ commands := by
        simp [Peer.sent, Peer.receive]
      rw [happend]
      exact h.got.trans (List.prefix_append _ _)
    · obtain ⟨outcome, hmem⟩ := hread
      rcases List.mem_append.mp hmem with hmem | hmem
      · exact ⟨outcome, hmem⟩
      · exact absurd (List.mem_singleton.mp hmem).symm (hlabel outcome)
  | moved hmoves =>
    refine ⟨h.settled.imp (fun hjoined => hmoves.joined.trans hjoined) hmoves.gone,
      hmoves.sent ▸ h.got, fun _ packet hpc => ?_⟩
    have hall : p'.taken = p'.sent := by
      rw [Peer.sent, hmoves.dispatch packet hpc, List.append_nil]
    rw [hall, hmoves.sent]
    exact h.got
  | joined hpc =>
    rcases h.settled with hjoined | hgone
    · simp [hpc, Pc.joined] at hjoined
    · cases hpc.symm.trans hgone
  | dropped hpc commands =>
    refine ⟨.inr rfl, ?_, nofun⟩
    have happend : (Peer.receive { p with pc := .gone } commands).sent = p.sent ++ commands := by
      simp [Peer.sent, Peer.receive]
    rw [happend]
    exact h.got.trans (List.prefix_append _ _)

variable [DecidableEq τ] [DecidableEq ω] {s s₁ : State τ ω}

/-- **What had been sent before a packet was read has been taken when it is acted on.** -/
theorem taken_run {after : List (Label τ ω)} (hp : s₁.peers t = some p)
    (hjoined : p.pc.joined = true) (hrun : Machine.run step s₁ after = some s) :
    ∃ p', s.peers t = some p' ∧ Taken p.sent t after p' := by
  refine Machine.run_history
    (I := fun labels s => ∃ p', s.peers t = some p' ∧ Taken p.sent t labels p')
    ?_ ⟨p, hp, .inl hjoined, List.prefix_rfl, ?_⟩ hrun
  · rintro labels s label s' ⟨q, hq, htaken⟩ hstep
    obtain ⟨q', hq', hevolves⟩ := evolves_step hstep hq
    exact ⟨q', hq', htaken.evolves hevolves⟩
  · rintro ⟨outcome, hmem⟩
    cases hmem

/-! ### Sessions that join late -/

/-- What a session adopts that joins after a call has told the others: what the call told, or
what has been stored since. -/
def Fresh (s₁ : State τ ω) (id : String) (permissions : GuestPermissions)
    (labels : List (Label τ ω)) (ceiling grant : GuestPermissions) : Prop :=
  grant = permissions ∨ ∃ since s', since <+: labels ∧ Machine.run step s₁ since = some s' ∧
    grant = stored s'.disk id ceiling

variable {id : String}

theorem Fresh.mono {permissions ceiling grant : GuestPermissions}
    (h : Fresh s₁ id permissions labels ceiling grant) :
    Fresh s₁ id permissions (labels ++ [label]) ceiling grant := by
  rcases h with htold | ⟨since, s', hsince, hrest⟩
  · exact .inl htold
  · exact .inr ⟨since, s', hsince.trans (List.prefix_append _ _), hrest⟩

/-- A session that had not joined. -/
structure Late (s₁ : State τ ω) (id : String) (permissions : GuestPermissions)
    (labels : List (Label τ ω)) (p : Peer) : Prop where
  ok : p.Ok
  admission : p.pairingId = id → p.pc = .admission →
    Fresh s₁ id permissions labels p.ceiling p.grantPermissions
  joined : p.pairingId = id → p.pc.joined = true →
    Fresh s₁ id permissions labels p.ceiling p.adopted

theorem Late.evolves {permissions : GuestPermissions}
    (h : Late s₁ id permissions labels p) (hrun : Machine.run step s₁ labels = some s)
    (hevolves : Evolves s.disk t label p p') : Late s₁ id permissions (labels ++ [label]) p' := by
  cases hevolves with
  | received hlabel commands =>
    exact ⟨h.ok, fun hid hpc => (h.admission hid hpc).mono, fun hid hpc => (h.joined hid hpc).mono⟩
  | moved hmoves =>
    refine ⟨hmoves.ok h.ok, fun hid hpc => ?_, fun hid hpc => ?_⟩
    · rw [hmoves.pairingId] at hid
      rw [hmoves.ceiling, hmoves.admission h.ok hpc, hid]
      exact .inr ⟨labels, s, List.prefix_append _ _, hrun, rfl⟩
    · rw [hmoves.ceiling, hmoves.adopted]
      exact (h.joined (hmoves.pairingId.symm.trans hid) (hmoves.joined.symm.trans hpc)).mono
  | joined hpc commands =>
    refine ⟨⟨rfl, fun reason hmem => nomatch hmem⟩, nofun, fun hid _ => ?_⟩
    exact (h.admission hid hpc).mono
  | dropped hpc commands => exact ⟨trivial, nofun, nofun⟩

/-- **A session that joins after a call has told the others has what it told, or what is stored
since.** -/
theorem late_run {permissions : GuestPermissions} {after : List (Label τ ω)}
    (hlate : ∀ p, s₁.peers t = some p → Late s₁ id permissions [] p)
    (hrun : Machine.run step s₁ after = some s) (hp : s.peers t = some p) :
    Late s₁ id permissions after p := by
  refine (Machine.run_history (I := fun labels s =>
    Machine.run step s₁ labels = some s ∧ ∀ p, s.peers t = some p → Late s₁ id permissions labels p)
    ?_ ⟨rfl, hlate⟩ hrun).2 p hp
  rintro labels s label s' ⟨hrun, hlate⟩ hstep
  refine ⟨Machine.run_append_eq_some.mpr ⟨s, hrun, Machine.run_cons_eq_some.mpr
    ⟨s', hstep, rfl⟩⟩, fun p' hp' => ?_⟩
  cases hp : s.peers t with
  | none =>
    obtain ⟨hpc, hgrant⟩ := step_new hstep hp hp'
    exact ⟨by simpa only [Peer.Ok, hpc] using hgrant, by simp [hpc], by simp [hpc, Pc.joined]⟩
  | some p =>
    obtain ⟨q, hq, hevolves⟩ := evolves_step hstep hp
    cases hq.symm.trans hp'
    exact (hlate p hp).evolves hrun hevolves

/-! ### Permission changes -/

/-- The calls for the id have returned. -/
def Returned (s : State τ ω) (id : String) : Prop :=
  ∀ o, ∀ call ∈ s.calls o, call.pairingId = id → call.phase.isReturned = true

instance [Fintype ω] (s : State τ ω) (id : String) : Decidable (Returned s id) :=
  inferInstanceAs (Decidable (∀ o, ∀ call ∈ s.calls o, _ → _ = true))

/-- The next step of the call tells the sessions of the id. -/
def Tells (s : State τ ω) (o : ω) (id : String) (permissions : GuestPermissions) : Prop :=
  s.calls o = some ⟨id, permissions, .broadcast⟩

theorem Inv.late {permissions : GuestPermissions} {o : ω} {files : Files}
    (h : Inv s) (hreaches : Reaches s (.go o files : Label τ ω)) (htells : Tells s o id permissions)
    (hkey : s.disk.HasKey id) (hstep : GuestRegistry.step s (.go o files) = some s₁)
    (hlate : ∀ p, s₁.peers t = some p → p.pc.joined = false) (hp : s₁.peers t = some p) :
    Late s₁ id permissions [] p := by
  obtain ⟨call, hcall, hs⟩ := Option.bind_eq_some_iff.mp hstep
  cases hcall.symm.trans htells
  obtain ⟨-, hwindow⟩ := hreaches _ htells rfl hkey
  obtain rfl := Option.some.inj hs
  obtain ⟨q, hq, rfl⟩ := mem_tell.mp hp
  refine ⟨h.ok t q hq, fun hid hpc => ?_, fun _ hjoined => ?_⟩
  · rcases hwindow t q hq hid hpc with htold | hstored
    · exact .inl htold
    · exact .inr ⟨[], _, List.prefix_rfl, rfl, hstored.trans (congrArg (stored _ · _) hid)⟩
  · cases (hlate _ hp).symm.trans hjoined

/-- **Permission changes reach every session of the pairing**, as long as every call reaches it.
When the calls for an id have returned, a session with nothing in its queue has what is stored.
What had been sent to a session before it read a packet, it has taken before it acts on the
packet, and none of that ends it.  A session that joins after a call has told the others has what
it told, or what is stored since. -/
theorem permissions_reach {d : Disk} (hreaches : Machine.Along step Reaches (State.init d) labels)
    (hrun : Machine.run step (State.init d : State τ ω) labels = some s) :
    (∀ id, s.disk.HasKey id → Returned s id → ∀ t p, s.peers t = some p → p.pairingId = id →
      p.pc.joined = true → p.queue = [] → p.grantPermissions = stored s.disk id p.ceiling) ∧
    (∀ before after s₁, labels = before ++ after →
      Machine.run step (State.init d) before = some s₁ → ∀ t p₁ p, s₁.peers t = some p₁ →
        p₁.pc.joined = true → s.peers t = some p → (∃ outcome, .read t outcome ∈ after) →
          ∀ packet, p.pc = .dispatch packet → p₁.sent <+: p.taken ∧ p.Faithful ∧
            ∃ ceiling, p.effectivePermissions = Guests.intersect p.grantPermissions ceiling) ∧
    ∀ before o files after s₀ s₁, labels = before ++ .go o files :: after →
      Machine.run step (State.init d) before = some s₀ → step s₀ (.go o files) = some s₁ →
        ∀ id permissions, Tells s₀ o id permissions → s₀.disk.HasKey id →
          ∀ t, (∀ p₁, s₁.peers t = some p₁ → p₁.pc.joined = false) →
            ∀ p, s.peers t = some p → p.pairingId = id → p.pc.joined = true →
              Fresh s₁ id permissions after p.ceiling p.adopted := by
  have hinv := Machine.run_inv_along (fun h hc hstep => Inv.step h hc hstep) (Inv.start d)
    hreaches hrun
  refine ⟨fun id hkey hreturned t p hp hid hjoined hqueue => ?_,
    fun before after s₁ heq hbefore t p₁ p hp₁ hjoined hp hread packet hpc => ?_,
    fun before o files after s₀ s₁ heq hbefore hstep id permissions htells hkey t hlate p hp hid
      hjoined => ?_⟩
  · rcases hinv.reaches id hkey with hsettled | ⟨o, call, hcall, hphase, hid', -⟩
    · have hfinal := (hsettled t p hp hid).1 hjoined
      rwa [Peer.final, hqueue, hid] at hfinal
    · have := hreturned o call hcall hid'
      simp [hphase, Phase.isReturned] at this
  · subst heq
    obtain ⟨u, hu, hafter⟩ := Machine.run_append_eq_some.mp hrun
    cases hu.symm.trans hbefore
    obtain ⟨p', hp', htaken⟩ := taken_run hp₁ hjoined hafter
    cases hp'.symm.trans hp
    have hok := hinv.ok t p hp
    simp only [Peer.Ok, hpc] at hok
    exact ⟨htaken.taken hread packet hpc, hok⟩
  · subst heq
    obtain ⟨u, hu, hafter⟩ := Machine.run_append_eq_some.mp hrun
    cases hu.symm.trans hbefore
    obtain ⟨v, hv, hafter⟩ := Machine.run_cons_eq_some.mp hafter
    cases hv.symm.trans hstep
    obtain ⟨halong, hrest⟩ := hreaches.append hbefore
    have hinv₀ := Machine.run_inv_along (fun h hc hstep => Inv.step h hc hstep) (Inv.start d)
      halong hbefore
    exact (late_run (fun p₁ hp₁ => hinv₀.late hrest.1 htells hkey hstep hlate hp₁) hafter hp).joined
      hid hjoined

end Histories

/-! ### A call in the middle of a handshake -/

def allAllowed : GuestPermissions := ⟨true, true, true, true, true⟩

def noneAllowed : GuestPermissions := ⟨false, false, false, false, false⟩

def known : Disk := ⟨[⟨"guest", "guest", .filled 0⟩], ∅⟩

/-- The guest joins, the operator takes everything from it, and it takes its commands. -/
def joinThenSet : List (Label Unit Unit) :=
  ([.handshake () "guest" allAllowed, .load () .ok, .authorization () .ok 0,
    .join () "id" "guest" allAllowed] : List (Label Unit Unit)) ++
  (.set () "guest" noneAllowed :: List.replicate 4 (.go () .ok) : List (Label Unit Unit)) ++
  ([.read () (some none), .command () true, .command () true, .serve () allAllowed 0 true] :
    List (Label Unit Unit))

theorem permissions_reach_joinThenSet : ∃ s : State Unit Unit,
    Machine.run step (State.init known) joinThenSet = some s ∧
      ∀ p, s.peers () = some p → p.pairingId = "guest" → p.pc.joined = true → p.queue = [] →
        p.grantPermissions = stored s.disk "guest" p.ceiling := by
  have hrun : ((Machine.run step (State.init known) joinThenSet).any fun s =>
      decide (s.disk.HasKey "guest" ∧ Returned s "guest")) = true := by
    decide
  obtain ⟨s, hs, hend⟩ := (Option.any_eq_true _ _).mp hrun
  obtain ⟨hkey, hreturned⟩ := of_decide_eq_true hend
  exact ⟨s, hs, (permissions_reach (by decide) hs).1 "guest" hkey hreturned ()⟩

/-- The operator takes everything from the guest between its handshake and the registry. -/
def setBeforeJoin : List (Label Unit Unit) :=
  ([.handshake () "guest" allAllowed, .load () .ok, .authorization () .ok 0] :
    List (Label Unit Unit)) ++
  (.set () "guest" noneAllowed :: List.replicate 4 (.go () .ok) : List (Label Unit Unit)) ++
  ([.join () "id" "guest" allAllowed, .read () (some none), .command () true,
    .serve () allAllowed 0 true] : List (Label Unit Unit))

/-- **A right that was taken back survives.** -/
theorem permissions_survive : ∃ (s : State Unit Unit) (p : Peer),
    Machine.run step (State.init known) setBeforeJoin = some s ∧ s.disk.HasKey "guest" ∧
      Returned s "guest" ∧ s.peers () = some p ∧ p.pairingId = "guest" ∧ p.pc.joined = true ∧
      p.queue = [] ∧ p.grantPermissions ≠ stored s.disk "guest" p.ceiling := by
  have hrun : ((Machine.run step (State.init known) setBeforeJoin).any fun s =>
      (s.peers ()).any fun p => decide (s.disk.HasKey "guest" ∧ Returned s "guest" ∧
        p.pairingId = "guest" ∧ p.pc.joined = true ∧ p.queue = [] ∧
        p.grantPermissions ≠ stored s.disk "guest" p.ceiling)) = true := by
    decide
  obtain ⟨s, hs, hpeer⟩ := (Option.any_eq_true _ _).mp hrun
  obtain ⟨p, hp, hend⟩ := (Option.any_eq_true _ _).mp hpeer
  obtain ⟨hkey, hreturned, hrest⟩ := of_decide_eq_true hend
  exact ⟨s, p, hs, hkey, hreturned, hp, hrest⟩

end MahoRD.GuestRegistry

/-
MahoRD/Host/Authorization.lean

The handshake of a known pairing reads the store twice, first the key record
(`PairingStore::load`), then the grant (`PairingStore::authorization`), and each
read is a critical section of its own.  Any number of handshakes run here
against revocations, saved records and changed authorizations, one critical
section a step.

An id without a row in the grants file is an owner's, for pairings older than
the file; a revocation removes the key record together with the row.
-/
import MahoRD.Host.Guests
import MahoRD.Host.PairingStore
import MahoRD.Lib.Machine

namespace MahoRD.Authorization

/-- What the handshake takes over from a stored authorization; without stored
permissions it keeps those of the host. -/
def adopt (grantPermissions : GuestPermissions) (now : UInt64)
    (authorization : PairingTrust × Option GuestPermissions) :
    Except SessionError (PairingTrust × GuestPermissions) :=
  if Guests.validTrust authorization.1 now then
    .ok (authorization.1, authorization.2.getD grantPermissions)
  else .error .unknownPairing

/-! ### The machine -/

abbrev TaskId := ℕ

/-- Where a handshake is.  In `admission` only what does not touch the store is
left to do. -/
inductive Pc
  | load
  | authorization (record : PairingRecord)
  | admission
  | authenticated
  | refused (error : SessionError)
  deriving DecidableEq

/-- `ceiling` is the permissions of the host; `loadedAt` and `readAt` count the
instants before the two reads. -/
structure HandshakeTask where
  pc : Pc
  pairingId : String
  ceiling : GuestPermissions
  sessionTrust : PairingTrust
  grantPermissions : GuestPermissions
  loadedAt : ℕ
  readAt : ℕ

/-- `past` holds what was on the disk before, the latest first. -/
structure State where
  disk : Disk
  past : List Disk
  tasks : Table TaskId HandshakeTask

inductive Label
  | start (i : TaskId) (pairingId : String) (ceiling : GuestPermissions)
  | load (i : TaskId) (files : Files)
  | authorization (i : TaskId) (files : Files) (now : UInt64)
  | admission (i : TaskId) (outcome : Except SessionError Unit)
  | revoke (files : Files) (id : String)
  | save (files : Files) (record : PairingRecord)
  | setAuthorization (files : Files) (id : String) (trust : PairingTrust)
      (permissions : Option GuestPermissions)

namespace State

def init (disk : Disk) : State := ⟨disk, [], ∅⟩

/-- All that was on the disk, the latest first. -/
def instants (s : State) : List Disk := s.disk :: s.past

def write (s : State) (disk : Disk) : State := { s with disk, past := s.disk :: s.past }

def setTask (s : State) (i : TaskId) (t : HandshakeTask) : State :=
  { s with tasks := s.tasks.insert i t }

end State

/-- The first read. -/
def loadStep (s : State) (i : TaskId) (t : HandshakeTask) (files : Files) : State :=
  match ((PairingStore.load files t.pairingId).exec s.disk).1 with
  | .error e => s.setTask i { t with pc := .refused e }
  | .ok none => s.setTask i { t with pc := .refused .unknownPairing }
  | .ok (some record) =>
    s.setTask i { t with pc := .authorization record, loadedAt := s.past.length }

/-- The second read. -/
def authorizationStep (s : State) (i : TaskId) (t : HandshakeTask) (record : PairingRecord)
    (files : Files) (now : UInt64) : State :=
  match ((PairingStore.authorization files record.id).exec s.disk).1 with
  | .error e => s.setTask i { t with pc := .refused e }
  | .ok authorization =>
    match adopt t.grantPermissions now authorization with
    | .error e => s.setTask i { t with pc := .refused e }
    | .ok (sessionTrust, grantPermissions) =>
      s.setTask i { t with
        pc := .admission, sessionTrust, grantPermissions, readAt := s.past.length }

def step (s : State) : Label → Option State
  | .start i pairingId ceiling =>
    match s.tasks.lookup i with
    | some _ => none
    | none => some (s.setTask i ⟨.load, pairingId, ceiling, .guestOnce, ceiling, 0, 0⟩)
  | .load i files =>
    match s.tasks.lookup i with
    | some t => if t.pc = .load then some (loadStep s i t files) else none
    | none => none
  | .authorization i files now =>
    match s.tasks.lookup i with
    | some t =>
      match t.pc with
      | .authorization record => some (authorizationStep s i t record files now)
      | _ => none
    | none => none
  | .admission i outcome =>
    match s.tasks.lookup i with
    | some t =>
      if t.pc = .admission then
        match outcome with
        | .ok () => some (s.setTask i { t with pc := .authenticated })
        | .error e => some (s.setTask i { t with pc := .refused e })
      else none
    | none => none
  | .revoke files id => some (s.write ((PairingStore.revoke files id).exec s.disk).2)
  | .save files record => some (s.write ((PairingStore.save files record).exec s.disk).2)
  | .setAuthorization files id trust permissions =>
    some (s.write ((PairingStore.setAuthorization files id trust permissions).exec s.disk).2)

/-! ### What was stored -/

/-- Reading back from an instant, there was no row for as long as the key record
was there. -/
def NeverGranted (id : String) : List Disk → Prop
  | [] => True
  | d :: older => d.HasKey id → d.grants.lookup id = none ∧ NeverGranted id older

/-- At the latest of these instants the key record was stored and the
authorization was the stored one; the absence of a row counts only for a key
record that never had one. -/
def Stored (id : String) (authorization : PairingTrust × Option GuestPermissions) :
    List Disk → Prop
  | [] => False
  | d :: older => d.HasKey id ∧
      PairingStore.answer (d.grants.lookup id) = .ok authorization ∧
        (d.grants.lookup id = none → NeverGranted id (d :: older))

/-- What the handshake runs with was stored at some instant between its two
reads. -/
def Faithful (s : State) (t : HandshakeTask) : Prop :=
  ∃ authorization instants, instants <:+ s.instants ∧ t.loadedAt < instants.length ∧
    instants.length ≤ t.readAt + 1 ∧ Stored t.pairingId authorization instants ∧
      t.sessionTrust = authorization.1 ∧
        t.grantPermissions = authorization.2.getD t.ceiling

/-- Between its two reads the id had a guest's grant whenever its key record was
stored. -/
def GuestThroughout (s : State) (t : HandshakeTask) : Prop :=
  ∀ d older, (d :: older) <:+ s.instants → t.loadedAt ≤ older.length →
    older.length ≤ t.readAt → d.HasKey t.pairingId →
      ∃ trust permissions, trust ≠ .owner ∧
        PairingStore.answer (d.grants.lookup t.pairingId) = .ok (trust, permissions)

/-- The handshake of the id is between its two reads. -/
def HandshakeTask.Between (t : HandshakeTask) (id : String) : Prop :=
  t.pairingId = id ∧ ∃ record, t.pc = .authorization record

/-- No revocation removes the row of an id, and none is written for it without a
key record, while a handshake of the id is between its two reads. -/
def Undisturbed (s : State) : Label → Prop
  | .revoke files id => files.Removes s.disk id →
      ∀ i t, s.tasks.lookup i = some t → ¬ t.Between id
  | .setAuthorization files id trust _ => files.Writes → (∃ bytes, trust.encode = .ok bytes) →
      ¬ s.disk.HasKey id → ∀ i t, s.tasks.lookup i = some t → ¬ t.Between id
  | _ => True

/-! ### The invariant -/

/-- The row of the id is now what it was at some instant since the first read
at which the key record was stored. -/
def Witnessed (s : State) (t : HandshakeTask) : Prop :=
  ∃ d older, (d :: older) <:+ s.instants ∧ t.loadedAt ≤ older.length ∧
    d.HasKey t.pairingId ∧
      d.grants.lookup t.pairingId = s.disk.grants.lookup t.pairingId ∧
        (d.grants.lookup t.pairingId = none → NeverGranted t.pairingId (d :: older))

def TaskInv (s : State) (t : HandshakeTask) : Prop :=
  match t.pc with
  | .load => t.grantPermissions = t.ceiling
  | .authorization record =>
    t.grantPermissions = t.ceiling ∧ record.id = t.pairingId ∧ Witnessed s t
  | .admission | .authenticated => Faithful s t
  | .refused _ => True

structure Inv (s : State) : Prop where
  granted : ∀ id, s.disk.HasKey id → s.disk.grants.lookup id = none →
    NeverGranted id s.instants
  task : ∀ i t, s.tasks.lookup i = some t → TaskInv s t

theorem inv_init (disk : Disk) : Inv (State.init disk) where
  granted id _ hrow := fun _ => ⟨hrow, trivial⟩
  task i t hl := by
    rw [State.init, AList.lookup_empty] at hl
    cases hl

variable {i : TaskId} {s : State} {t : HandshakeTask} {files : Files}

theorem Inv.setTask (hs : Inv s)
    (ht : TaskInv s t) : Inv (s.setTask i t) where
  granted := hs.granted
  task j u hu := by
    rw [State.setTask, Table.lookup_insert] at hu
    split at hu
    · cases hu
      exact ht
    · exact hs.task j u hu

theorem Faithful.write (d : Disk) (h : Faithful s t) :
    Faithful (s.write d) t := by
  obtain ⟨authorization, instants, hsuffix, hrest⟩ := h
  exact ⟨authorization, instants, hsuffix.trans (List.suffix_cons d s.instants), hrest⟩

/-- The disk changes.  While a key record stays its row does, and between the
two reads of a handshake the row stays, or is written beside the key record. -/
theorem Inv.write {d : Disk} (hs : Inv s)
    (hkeep : ∀ id, d.HasKey id → d.grants.lookup id = none → s.disk.HasKey id →
      s.disk.grants.lookup id = none)
    (hbetween : ∀ i t, s.tasks.lookup i = some t → t.Between t.pairingId →
      d.grants.lookup t.pairingId = s.disk.grants.lookup t.pairingId ∨
        d.HasKey t.pairingId ∧ (d.grants.lookup t.pairingId).isSome) : Inv (s.write d) where
  granted id hkey hrow := by
    intro _
    refine ⟨hrow, ?_⟩
    by_cases hold : s.disk.HasKey id
    · exact hs.granted id hold (hkeep id hkey hrow hold)
    · exact fun h => absurd h hold
  task i t hl := by
    have ht := hs.task i t hl
    rcases hpc : t.pc with - | record | - | - | e
    all_goals
      simp only [TaskInv, hpc] at ht ⊢
    · exact ht
    · obtain ⟨hceiling, hid, d₀, older, hsuffix, hloaded, hkey, hsame, hnever⟩ := ht
      refine ⟨hceiling, hid, ?_⟩
      rcases hbetween i t hl ⟨rfl, record, hpc⟩ with heq | ⟨hkey', hsome⟩
      · exact ⟨d₀, older, hsuffix.trans (List.suffix_cons d s.instants), hloaded, hkey,
          hsame.trans heq.symm, hnever⟩
      · refine ⟨d, s.instants, List.suffix_refl _, ?_, hkey', rfl, fun hnone => ?_⟩
        · have hlen := hsuffix.length_le
          simp only [List.length_cons] at hlen
          omega
        · rw [hnone] at hsome
          cases hsome
    · exact ht.write d
    · exact ht.write d

/-! ### One lemma for each step -/

theorem inv_loadStep (hs : Inv s)
    (hl : s.tasks.lookup i = some t) (hpc : t.pc = .load) : Inv (loadStep s i t files) := by
  have ht := hs.task i t hl
  simp only [TaskInv, hpc] at ht
  simp only [loadStep, PairingStore.exec_load]
  rcases files.readRecords with - | e
  · rcases hfind : s.disk.records.find? (fun record => record.id = t.pairingId) with - | record
    · simp only [hfind]
      exact hs.setTask trivial
    · have hid : record.id = t.pairingId := by simpa using List.find?_some hfind
      have hkey : s.disk.HasKey t.pairingId := ⟨record, List.mem_of_find?_eq_some hfind, hid⟩
      simp only [hfind]
      -- the instant of the read itself is the witness
      exact hs.setTask ⟨ht, hid, s.disk, s.past, List.suffix_refl _, le_rfl, hkey, rfl,
        hs.granted t.pairingId hkey⟩
  · show Inv (s.setTask i { t with pc := .refused e })
    exact hs.setTask trivial

theorem faithful_of_witnessed {now : UInt64}
    {authorization : PairingTrust × Option GuestPermissions} {sessionTrust : PairingTrust}
    {grantPermissions : GuestPermissions} (hw : Witnessed s t)
    (hceiling : t.grantPermissions = t.ceiling)
    (hanswer : PairingStore.answer (s.disk.grants.lookup t.pairingId) = .ok authorization)
    (hadopt : adopt t.grantPermissions now authorization = .ok (sessionTrust, grantPermissions)) :
    Faithful s { t with pc := .admission, sessionTrust, grantPermissions, readAt := s.past.length } := by
  obtain ⟨d, older, hsuffix, hloaded, hkey, hsame, hnever⟩ := hw
  rw [adopt] at hadopt
  split at hadopt
  · cases hadopt
    refine ⟨authorization, d :: older, hsuffix, ?_, hsuffix.length_le, ⟨hkey, ?_, hnever⟩, rfl, ?_⟩
    · show t.loadedAt < older.length + 1
      omega
    · exact (congrArg PairingStore.answer hsame).trans hanswer
    · show authorization.2.getD t.grantPermissions = authorization.2.getD t.ceiling
      rw [hceiling]
  · cases hadopt

theorem inv_authorizationStep
    {record : PairingRecord} {now : UInt64} (hs : Inv s)
    (hl : s.tasks.lookup i = some t) (hpc : t.pc = .authorization record) :
    Inv (authorizationStep s i t record files now) := by
  have ht := hs.task i t hl
  simp only [TaskInv, hpc] at ht
  obtain ⟨hceiling, hid, hw⟩ := ht
  simp only [authorizationStep, PairingStore.exec_authorization, hid]
  rcases files.readGrants with - | e
  · rcases hanswer : PairingStore.answer (s.disk.grants.lookup t.pairingId) with e | authorization
    · show Inv (s.setTask i { t with pc := .refused e })
      exact hs.setTask trivial
    · rcases hadopt : adopt t.grantPermissions now authorization with e | ⟨trust, permissions⟩
      · simp only [hadopt]
        exact hs.setTask trivial
      · simp only [hadopt]
        exact hs.setTask (faithful_of_witnessed hw hceiling hanswer hadopt)
  · show Inv (s.setTask i { t with pc := .refused e })
    exact hs.setTask trivial

theorem inv_save (hs : Inv s) (files : Files) (record : PairingRecord) :
    Inv (s.write ((PairingStore.save files record).exec s.disk).2) := by
  have hg := PairingStore.save_grants files record s.disk
  refine hs.write (fun id _ hrow _ => ?_) fun i t _ _ => Or.inl ?_
  · rwa [hg] at hrow
  · rw [hg]

theorem inv_revoke {id : String} (hs : Inv s)
    (hC : Undisturbed s (.revoke files id)) :
    Inv (s.write ((PairingStore.revoke files id).exec s.disk).2) := by
  rcases PairingStore.revoke_spec files id s.disk with hg | ⟨hremoves, hg, hgone⟩
  · refine hs.write (fun id' _ hrow _ => ?_) fun i t _ _ => Or.inl ?_
    · rwa [hg] at hrow
    · rw [hg]
  · refine hs.write (fun id' hkey hrow _ => ?_) fun i t hl hb => Or.inl ?_
    · rw [hg, Table.lookup_erase] at hrow
      split at hrow
      next heq =>
        subst heq
        exact absurd hkey hgone
      · exact hrow
    · rw [hg, Table.lookup_erase, if_neg]
      intro heq
      exact hC hremoves i t hl (heq ▸ hb)

theorem inv_setAuthorization {id : String} {trust : PairingTrust}
    {permissions : Option GuestPermissions} (hs : Inv s)
    (hC : Undisturbed s (.setAuthorization files id trust permissions)) :
    Inv (s.write ((PairingStore.setAuthorization files id trust permissions).exec s.disk).2) := by
  rcases PairingStore.setAuthorization_spec files id trust permissions s.disk with
    hd | ⟨hwrites, hencodes, grant, hd⟩
  · rw [hd]
    exact hs.write (fun id' _ hrow _ => hrow) fun i t _ _ => Or.inl rfl
  · rw [hd]
    refine hs.write (fun id' _ hrow _ => ?_) fun i t hl hb => ?_
    · rw [Table.lookup_insert] at hrow
      split at hrow
      · cases hrow
      · exact hrow
    · rw [Table.lookup_insert]
      split
      next heq =>
        refine Or.inr ⟨?_, rfl⟩
        by_contra hno
        exact hC hwrites hencodes (heq ▸ hno) i t hl (heq ▸ hb)
      · exact Or.inl rfl

theorem inv_step {s' : State} {l : Label} (hs : Inv s) (hC : Undisturbed s l)
    (h : step s l = some s') : Inv s' := by
  cases l with
  | start i pairingId ceiling =>
    simp only [step] at h
    split at h
    · cases h
    · exact Option.some.inj h ▸ hs.setTask rfl
  | load i files =>
    simp only [step] at h
    split at h
    next t hl =>
      split at h
      next hpc => exact Option.some.inj h ▸ inv_loadStep hs hl hpc
      · cases h
    · cases h
  | authorization i files now =>
    simp only [step] at h
    split at h
    next t hl =>
      split at h
      next record hpc => exact Option.some.inj h ▸ inv_authorizationStep hs hl hpc
      · cases h
    · cases h
  | admission i outcome =>
    simp only [step] at h
    split at h
    next t hl =>
      split at h
      next hpc =>
        have ht := hs.task i t hl
        simp only [TaskInv, hpc] at ht
        rcases outcome with e | ⟨⟩
        · exact Option.some.inj h ▸ hs.setTask trivial
        · exact Option.some.inj h ▸ hs.setTask ht
      · cases h
    · cases h
  | revoke files id => exact Option.some.inj h ▸ inv_revoke hs hC
  | save files record => exact Option.some.inj h ▸ inv_save hs files record
  | setAuthorization files id trust permissions =>
    exact Option.some.inj h ▸ inv_setAuthorization hs hC

/-! ### The result -/

/-- **Whoever is authenticated runs with what was stored for it**, at an instant
between its two reads at which its key record was stored too, in every run of
handshakes and store operations in which no revocation removes the row of an id,
and no row is written without a key record, between the two reads of a handshake
of that id.  In particular an id that was a guest's all along is not taken for
an owner's. -/
theorem authorization_stored {disk : Disk} {labels : List Label} {s : State} {i : TaskId}
    {t : HandshakeTask} (hrun : Machine.run step (State.init disk) labels = some s)
    (hC : Machine.Along step Undisturbed (State.init disk) labels)
    (hl : s.tasks.lookup i = some t) (hauth : t.pc = .authenticated) :
    Faithful s t ∧ (GuestThroughout s t → t.sessionTrust ≠ .owner) := by
  have hs : Inv s := Machine.run_inv_along inv_step (inv_init disk) hC hrun
  have ht := hs.task i t hl
  simp only [TaskInv, hauth] at ht
  refine ⟨ht, fun hguest howner => ?_⟩
  obtain ⟨authorization, instants, hsuffix, hloaded, hread, hstored, htrust, -⟩ := ht
  rcases instants with - | ⟨d, older⟩
  · exact hstored
  · simp only [List.length_cons] at hloaded hread
    obtain ⟨hkey, hanswer, -⟩ := hstored
    obtain ⟨trust, permissions, hne, hanswer'⟩ :=
      hguest d older hsuffix (by omega) (by omega) hkey
    rw [hanswer] at hanswer'
    cases hanswer'
    exact hne (htrust.symm.trans howner)

/-- The disk of a host with one guest, `P1`, whose grant expires at 2000. -/
def guestDisk : Disk where
  records := [⟨"P1", "guest", .filled 7⟩]
  grants := AList.insert "P1" ([2, 208, 7, 0, 0, 0, 0, 0, 0],
    some #v[true, true, false, false, false]) ∅

def ceiling : GuestPermissions := ⟨true, true, true, true, true⟩

/-- A pairing saved between the two reads of the guest does not disturb them. -/
theorem authorization_stored_saved :
    ∃ s t, Machine.run step (State.init guestDisk)
        [.start 0 "P1" ceiling, .load 0 .ok,
          .save .ok ⟨"P2", "owner", ⟨List.replicate 32 9, rfl⟩⟩,
          .authorization 0 .ok 1000, .admission 0 (.ok ())] = some s ∧
      s.tasks.lookup 0 = some t ∧ t.pc = .authenticated ∧ Faithful s t ∧
        (GuestThroughout s t → t.sessionTrust ≠ .owner) := by
  let labels : List Label := [.start 0 "P1" ceiling, .load 0 .ok,
    .save .ok ⟨"P2", "owner", ⟨List.replicate 32 9, rfl⟩⟩,
    .authorization 0 .ok 1000, .admission 0 (.ok ())]
  have hpc : ((Machine.run step (State.init guestDisk) labels).bind fun s =>
      (s.tasks.lookup 0).map fun t => t.pc) = some .authenticated := by decide
  obtain ⟨s, hrun, hs⟩ := Option.bind_eq_some_iff.mp hpc
  obtain ⟨t, hl, hauth⟩ := Option.map_eq_some_iff.mp hs
  have hC : Machine.Along step Undisturbed (State.init guestDisk) labels :=
    ⟨trivial, fun _ _ => ⟨trivial, fun _ _ => ⟨trivial, fun _ _ => ⟨trivial, fun _ _ =>
      ⟨trivial, fun _ _ => trivial⟩⟩⟩⟩⟩
  exact ⟨s, t, hrun, hl, hauth, authorization_stored hrun hC hl hauth⟩

/-- **A guest revoked between the two reads of its handshake is taken for the
owner**: the key record is found, then key record and grant are removed, then no
grant is found.  No authorization of an owner was ever stored for it. -/
theorem revoked_guest_is_owner :
    ∃ s t, Machine.run step (State.init guestDisk)
        [.start 0 "P1" ceiling, .load 0 .ok, .revoke .ok "P1",
          .authorization 0 .ok 1000, .admission 0 (.ok ())] = some s ∧
      s.tasks.lookup 0 = some t ∧ t.pc = .authenticated ∧ t.sessionTrust = .owner ∧
        GuestThroughout s t ∧
          ¬ ∃ authorization instants, instants <:+ s.instants ∧
            Stored "P1" authorization instants ∧ t.sessionTrust = authorization.1 := by
  let labels : List Label := [.start 0 "P1" ceiling, .load 0 .ok, .revoke .ok "P1",
    .authorization 0 .ok 1000, .admission 0 (.ok ())]
  have hend : ((Machine.run step (State.init guestDisk) labels).bind fun s =>
      (s.tasks.lookup 0).map fun t => (s.instants, t.pc, t.pairingId, t.sessionTrust))
        = some ([⟨[], ∅⟩, guestDisk], .authenticated, "P1", .owner) := rfl
  obtain ⟨s, hrun, hs⟩ := Option.bind_eq_some_iff.mp hend
  obtain ⟨t, hl, ht⟩ := Option.map_eq_some_iff.mp hs
  simp only [Prod.mk.injEq] at ht
  obtain ⟨hinstants, hauth, hid, howner⟩ := ht
  have hnone : ¬ Disk.HasKey ⟨[], ∅⟩ "P1" := by decide
  have hguest : PairingStore.answer (guestDisk.grants.lookup "P1")
      = .ok (.guestExpiring 2000, some ⟨true, true, false, false, false⟩) := by decide
  refine ⟨s, t, hrun, hl, hauth, howner, ?_, ?_⟩
  · intro d older hsuffix _ _ hkey
    rw [hinstants] at hsuffix
    rw [hid] at hkey ⊢
    rcases List.suffix_cons_iff.mp hsuffix with heq | hsuffix
    · cases heq
      exact absurd hkey hnone
    · rcases List.suffix_cons_iff.mp hsuffix with heq | hsuffix
      · cases heq
        exact ⟨_, _, by decide, hguest⟩
      · cases List.suffix_nil.mp hsuffix
  · rintro ⟨authorization, instants, hsuffix, hstored, htrust⟩
    rw [hinstants] at hsuffix
    rcases List.suffix_cons_iff.mp hsuffix with rfl | hsuffix
    · exact hnone hstored.1
    · rcases List.suffix_cons_iff.mp hsuffix with rfl | hsuffix
      · have hanswer := hstored.2.1
        rw [hguest] at hanswer
        cases hanswer
        rw [howner] at htrust
        cases htrust
      · cases List.suffix_nil.mp hsuffix
        exact hstored

end MahoRD.Authorization

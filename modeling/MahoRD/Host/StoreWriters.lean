/-
MahoRD/Host/StoreWriters.lean

Any number of calls on pairing stores that were opened separately on one path (`PairingStore` in
`maho-host/src/session.rs`): the host that runs, the desktop shell, `maho-host --revoke`.  A step
is one operation of one call: it takes the mutex of its store, reads a file, writes a new file
beside it, renames that into place, or lets the mutex go.

The mutex is private to one store and its clones, and all stores write beside a file under the
same temporary name.
-/
import MahoRD.Host.PairingStore
import MahoRD.Lib.Machine

namespace MahoRD.StoreWriters

/-! ### Calls -/

inductive Request
  | loadAll
  | save (record : PairingRecord)
  | revoke (id : String)
  | authorization (id : String)
  | setAuthorization (id : String) (trust : PairingTrust) (permissions : Option GuestPermissions)

inductive Reply
  | records (records : List PairingRecord)
  | done
  | revoked (removed : Bool)
  | authorization (trust : PairingTrust) (permissions : Option GuestPermissions)
  deriving DecidableEq

/-- `recordsLate`, `grantsLate`: a write that fails before the new file is in place fails at the
rename, not before the temporary is written. -/
structure Call where
  request : Request
  files : Files
  recordsLate : Bool
  grantsLate : Bool

namespace Request

def revokes : Request → Bool
  | revoke _ => true
  | _ => false

/-- The records to write, from those that are stored. -/
def onRecords : Request → List PairingRecord → Option (List PairingRecord)
  | save record, records =>
    some ((records.filter fun existing => existing.id ≠ record.id) ++ [record])
  | revoke id, records =>
    let kept := records.filter fun record => record.id ≠ id
    if kept.length != records.length then some kept else none
  | _, _ => none

/-- The grants to write, if any, and the answer. -/
def onGrants (removed : Bool) :
    Request → Table String Grant → Except SessionError (Option (Table String Grant) × Reply)
  | revoke id, grants =>
    .ok (if (grants.lookup id).isSome then some (grants.erase id) else none, .revoked removed)
  | authorization id, grants =>
    (PairingStore.answer (grants.lookup id)).map fun answer =>
      (none, .authorization answer.1 answer.2)
  | setAuthorization id trust permissions, grants =>
    match trust.encode with
    | .error e => .error (.codec e)
    | .ok bytes =>
      .ok (some (grants.insert id (bytes, permissions.map PairingStore.flags)), .done)
  | _, _ => .ok (none, .done)

end Request

namespace Call

variable (call : Call)

/-- The call with nothing in between. -/
def act : StoreAct Reply :=
  match call.request with
  | .loadAll => do return .records (← PairingStore.loadAll call.files)
  | .save record => do
    PairingStore.save call.files record
    return .done
  | .revoke id => do return .revoked (← PairingStore.revoke call.files id)
  | .authorization id => do
    let answer ← PairingStore.authorization call.files id
    return .authorization answer.1 answer.2
  | .setAuthorization id trust permissions => do
    PairingStore.setAuthorization call.files id trust permissions
    return .done

def apply (d : Disk) : Disk := (call.act.exec d).2

end Call

/-! ### Phases -/

/-- Where a call is.  It remembers what it has read, and what it will put in its place. -/
inductive Phase
  | locking
  | readingRecords
  | writingRecords (read content : List PairingRecord)
  | renamingRecords (read content : List PairingRecord)
  | readingGrants (removed : Bool)
  | writingGrants (read content : Table String Grant) (reply : Reply)
  | renamingGrants (read content : Table String Grant) (reply : Reply)
  | unlocking (result : Except SessionError Reply)
  | done (result : Except SessionError Reply)
  deriving DecidableEq

/-- The files, and the two temporaries. -/
structure Directory where
  disk : Disk
  recordsTemporary : Option (List PairingRecord)
  grantsTemporary : Option (Table String Grant)

namespace Call

variable (call : Call)

/-- Under the mutex. -/
def first : Phase :=
  match call.request with
  | .loadAll | .save _ | .revoke _ => .readingRecords
  | .authorization _ | .setAuthorization .. => .readingGrants false

/-- Done with the records. -/
def afterRecords (removed : Bool) (records : List PairingRecord) : Phase :=
  match call.request with
  | .revoke _ => .readingGrants removed
  | .loadAll => .unlocking (.ok (.records records))
  | _ => .unlocking (.ok .done)

/-- The temporary was renamed by another store. -/
def missing : SessionError := .io ⟨.other, false⟩

/-- One operation on a file. -/
def advance : Phase → Directory → Option (Phase × Directory)
  | .readingRecords, dir =>
    match call.files.readRecords with
    | some e => some (.unlocking (.error e), dir)
    | none =>
      match call.request.onRecords dir.disk.records with
      | none => some (call.afterRecords false dir.disk.records, dir)
      | some content => some (.writingRecords dir.disk.records content, dir)
  | .writingRecords read content, dir =>
    match call.files.writeRecords with
    | some (e, false) =>
      if call.recordsLate then
        some (.renamingRecords read content, { dir with recordsTemporary := some content })
      else some (.unlocking (.error e), dir)
    | _ => some (.renamingRecords read content, { dir with recordsTemporary := some content })
  | .renamingRecords read _, dir =>
    match call.files.writeRecords, dir.recordsTemporary with
    | some (e, false), _ => some (.unlocking (.error e), dir)
    | _, none => some (.unlocking (.error missing), dir)
    | some (e, true), some content =>
      some (.unlocking (.error e),
        { dir with disk := { dir.disk with records := content }, recordsTemporary := none })
    | none, some content =>
      some (call.afterRecords true read,
        { dir with disk := { dir.disk with records := content }, recordsTemporary := none })
  | .readingGrants removed, dir =>
    match call.files.readGrants with
    | some e => some (.unlocking (.error e), dir)
    | none =>
      match call.request.onGrants removed dir.disk.grants with
      | .error e => some (.unlocking (.error e), dir)
      | .ok (none, reply) => some (.unlocking (.ok reply), dir)
      | .ok (some content, reply) => some (.writingGrants dir.disk.grants content reply, dir)
  | .writingGrants read content reply, dir =>
    match call.files.writeGrants with
    | some e =>
      if call.grantsLate then
        some (.renamingGrants read content reply, { dir with grantsTemporary := some content })
      else some (.unlocking (.error e), dir)
    | none =>
      some (.renamingGrants read content reply, { dir with grantsTemporary := some content })
  | .renamingGrants _ _ reply, dir =>
    match call.files.writeGrants, dir.grantsTemporary with
    | some e, _ => some (.unlocking (.error e), dir)
    | none, none => some (.unlocking (.error missing), dir)
    | none, some content =>
      some (.unlocking (.ok reply),
        { dir with disk := { dir.disk with grants := content }, grantsTemporary := none })
  | .locking, _ | .unlocking _, _ | .done _, _ => none

/-- The new file gets into place. -/
def replacesRecords : Bool := call.files.writeRecords.all Prod.snd

def replacesGrants : Bool := call.files.writeGrants.isNone

/-- What an operation on a file does. -/
inductive Advance (dir : Directory) : Phase → Phase × Directory → Prop
  | recordsUnread {e} (hread : call.files.readRecords = some e) :
      Advance dir .readingRecords (.unlocking (.error e), dir)
  | recordsKept (hread : call.files.readRecords = none)
      (hon : call.request.onRecords dir.disk.records = none) :
      Advance dir .readingRecords (call.afterRecords false dir.disk.records, dir)
  | recordsRead {content} (hread : call.files.readRecords = none)
      (hon : call.request.onRecords dir.disk.records = some content) :
      Advance dir .readingRecords (.writingRecords dir.disk.records content, dir)
  | recordsWritten {read content} :
      Advance dir (.writingRecords read content)
        (.renamingRecords read content, { dir with recordsTemporary := some content })
  | recordsUnwritten {read content e} (hwrite : call.files.writeRecords = some (e, false)) :
      Advance dir (.writingRecords read content) (.unlocking (.error e), dir)
  | recordsUnrenamed {read content e} (hwrite : call.files.writeRecords = some (e, false)) :
      Advance dir (.renamingRecords read content) (.unlocking (.error e), dir)
  | recordsMissing {read content} (hreplaces : call.replacesRecords = true)
      (htemporary : dir.recordsTemporary = none) :
      Advance dir (.renamingRecords read content) (.unlocking (.error missing), dir)
  | recordsRenamed {read content found} (hwrite : call.files.writeRecords = none)
      (htemporary : dir.recordsTemporary = some found) :
      Advance dir (.renamingRecords read content) (call.afterRecords true read,
        { dir with disk := { dir.disk with records := found }, recordsTemporary := none })
  | recordsExposed {read content found e} (hwrite : call.files.writeRecords = some (e, true))
      (htemporary : dir.recordsTemporary = some found) :
      Advance dir (.renamingRecords read content) (.unlocking (.error e),
        { dir with disk := { dir.disk with records := found }, recordsTemporary := none })
  | grantsUnread {removed e} (hread : call.files.readGrants = some e) :
      Advance dir (.readingGrants removed) (.unlocking (.error e), dir)
  | grantsRefused {removed e} (hread : call.files.readGrants = none)
      (hon : call.request.onGrants removed dir.disk.grants = .error e) :
      Advance dir (.readingGrants removed) (.unlocking (.error e), dir)
  | grantsKept {removed reply} (hread : call.files.readGrants = none)
      (hon : call.request.onGrants removed dir.disk.grants = .ok (none, reply)) :
      Advance dir (.readingGrants removed) (.unlocking (.ok reply), dir)
  | grantsRead {removed content reply} (hread : call.files.readGrants = none)
      (hon : call.request.onGrants removed dir.disk.grants = .ok (some content, reply)) :
      Advance dir (.readingGrants removed) (.writingGrants dir.disk.grants content reply, dir)
  | grantsWritten {read content reply} :
      Advance dir (.writingGrants read content reply)
        (.renamingGrants read content reply, { dir with grantsTemporary := some content })
  | grantsUnwritten {read content reply e} (hwrite : call.files.writeGrants = some e) :
      Advance dir (.writingGrants read content reply) (.unlocking (.error e), dir)
  | grantsUnrenamed {read content reply e} (hwrite : call.files.writeGrants = some e) :
      Advance dir (.renamingGrants read content reply) (.unlocking (.error e), dir)
  | grantsMissing {read content reply} (hwrite : call.files.writeGrants = none)
      (htemporary : dir.grantsTemporary = none) :
      Advance dir (.renamingGrants read content reply) (.unlocking (.error missing), dir)
  | grantsRenamed {read content reply found} (hwrite : call.files.writeGrants = none)
      (htemporary : dir.grantsTemporary = some found) :
      Advance dir (.renamingGrants read content reply) (.unlocking (.ok reply),
        { dir with disk := { dir.disk with grants := found }, grantsTemporary := none })

variable {call}

theorem advance_cases {phase : Phase} {dir : Directory} {next : Phase × Directory}
    (h : call.advance phase dir = some next) : call.Advance dir phase next := by
  cases phase with
  | locking | unlocking | done => cases h
  | readingRecords =>
    simp only [advance] at h
    split at h
    next hread =>
      cases h
      exact .recordsUnread hread
    next hread =>
      split at h
      next hon =>
        cases h
        exact .recordsKept hread hon
      next hon =>
        cases h
        exact .recordsRead hread hon
  | writingRecords read content =>
    simp only [advance] at h
    split at h
    next hwrite =>
      split at h
      · cases h
        exact .recordsWritten
      · cases h
        exact .recordsUnwritten hwrite
    · cases h
      exact .recordsWritten
  | renamingRecords read content =>
    simp only [advance] at h
    split at h
    next hwrite =>
      cases h
      exact .recordsUnrenamed hwrite
    next htemporary hwrite =>
      cases h
      refine .recordsMissing ?_ htemporary
      rcases hfail : call.files.writeRecords with - | ⟨e, - | -⟩
      · simp [replacesRecords, hfail]
      · exact (hwrite e hfail).elim
      · simp [replacesRecords, hfail]
    next hwrite htemporary =>
      cases h
      exact .recordsExposed hwrite htemporary
    next hwrite htemporary =>
      cases h
      exact .recordsRenamed hwrite htemporary
  | readingGrants removed =>
    simp only [advance] at h
    split at h
    next hread =>
      cases h
      exact .grantsUnread hread
    next hread =>
      split at h
      next hon =>
        cases h
        exact .grantsRefused hread hon
      next hon =>
        cases h
        exact .grantsKept hread hon
      next hon =>
        cases h
        exact .grantsRead hread hon
  | writingGrants read content reply =>
    simp only [advance] at h
    split at h
    next hwrite =>
      split at h
      · cases h
        exact .grantsWritten
      · cases h
        exact .grantsUnwritten hwrite
    · cases h
      exact .grantsWritten
  | renamingGrants read content reply =>
    simp only [advance] at h
    split at h
    next hwrite =>
      cases h
      exact .grantsUnrenamed hwrite
    next hwrite htemporary =>
      cases h
      exact .grantsMissing hwrite htemporary
    next hwrite htemporary =>
      cases h
      exact .grantsRenamed hwrite htemporary

end Call

/-! ### The machine -/

/-- `holders`: who holds the mutex of a store. -/
structure State (τ υ : Type*) where
  directory : Directory
  holders : υ → Option τ
  phases : τ → Option Phase

inductive Label (τ : Type*)
  | call (t : τ)
  | go (t : τ)

namespace State

variable {τ υ : Type*}

def init (d : Disk) : State τ υ := ⟨⟨d, none, none⟩, fun _ => none, fun _ => none⟩

variable [DecidableEq τ]

def set (s : State τ υ) (t : τ) (phase : Phase) (directory : Directory)
    (holders : υ → Option τ) : State τ υ :=
  ⟨directory, holders, Function.update s.phases t (some phase)⟩

variable (s : State τ υ) {t u : τ} {phase : Phase} {directory : Directory} {holders : υ → Option τ}

@[simp] theorem set_directory : (s.set t phase directory holders).directory = directory := rfl

@[simp] theorem set_self : (s.set t phase directory holders).phases t = some phase :=
  Function.update_self _ _ _

theorem set_of_ne (h : u ≠ t) : (s.set t phase directory holders).phases u = s.phases u :=
  Function.update_of_ne h _ _

end State

section Machine

variable {τ υ : Type*} [DecidableEq τ] [DecidableEq υ] (calls : τ → Call) (store : τ → υ)

def step (s : State τ υ) : Label τ → Option (State τ υ)
  | .call t =>
    match s.phases t with
    | none => some (s.set t .locking s.directory s.holders)
    | some _ => none
  | .go t =>
    match s.phases t with
    | none => none
    | some .locking =>
      match s.holders (store t) with
      | some _ => none
      | none =>
        some (s.set t (calls t).first s.directory (Function.update s.holders (store t) (some t)))
    | some (.unlocking result) =>
      some (s.set t (.done result) s.directory (Function.update s.holders (store t) none))
    | some phase =>
      ((calls t).advance phase s.directory).map fun next => s.set t next.1 next.2 s.holders

/-- What a step of a call does. -/
inductive Go (s : State τ υ) (t : τ) : State τ υ → Prop
  | locked {holders} (hphase : s.phases t = some .locking) :
      Go s t (s.set t (calls t).first s.directory holders)
  | unlocked {result holders} (hphase : s.phases t = some (.unlocking result)) :
      Go s t (s.set t (.done result) s.directory holders)
  | advanced {phase next} (hphase : s.phases t = some phase)
      (hadvance : (calls t).advance phase s.directory = some next) :
      Go s t (s.set t next.1 next.2 s.holders)

variable {calls store}

theorem step_go {s s' : State τ υ} {t : τ} (h : step calls store s (.go t) = some s') :
    Go calls s t s' := by
  simp only [step] at h
  split at h
  · cases h
  · rename_i hphase
    split at h
    · cases h
    · cases h
      exact .locked hphase
  · rename_i hphase
    cases h
    exact .unlocked hphase
  · rename_i hphase
    obtain ⟨next, hadvance, rfl⟩ := Option.map_eq_some_iff.mp h
    exact .advanced hphase hadvance

theorem step_call {s s' : State τ υ} {t : τ} (h : step calls store s (.call t) = some s') :
    s.phases t = none ∧ s' = s.set t .locking s.directory s.holders := by
  simp only [step] at h
  split at h
  · rename_i hphase
    cases h
    exact ⟨hphase, rfl⟩
  · cases h

end Machine

end MahoRD.StoreWriters
